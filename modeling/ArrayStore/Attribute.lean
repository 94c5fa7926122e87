import ArrayStore.Error
import ArrayStore.Text.Utf8

/-!
# Attributes of a container

Every attribute is stored as UTF-8 text.

* `Attribute`, `Attribute.encode` : texts, lists of texts and booleans, and their bytes;
* `Attribute.decode` : the text of stored bytes;
* `Attribute.ofBool`, `Attribute.toBool` : the tokens `True` and `False`, and no other.
-/

namespace ArrayStore

inductive Attribute where
  | text (value : String)
  | texts (values : List String)
  | bool (value : Bool)
  deriving DecidableEq, Repr

/-- The bytes of an attribute: one sequence, or one for each entry of a list. -/
inductive Encoded where
  | scalar (bytes : List UInt8)
  | list (entries : List (List UInt8))
  deriving DecidableEq, Repr

namespace Attribute

def ofBool (value : Bool) : String := if value then "True" else "False"

def toBool (token : String) : Except StoreError Bool :=
  if token = "True" then .ok true
  else if token = "False" then .ok false
  else .error (.invalidBool token)

def encode : Attribute → Encoded
  | .text value => .scalar (Utf8.encode value)
  | .texts values => .list (values.map Utf8.encode)
  | .bool value => .scalar (Utf8.encode (ofBool value))

def decode (bytes : List UInt8) : Except StoreError String :=
  match Utf8.decode bytes with
  | .ok s => .ok s
  | .error fault => .error (.decode ("attribute is not valid UTF-8: " ++ fault.message))

theorem toBool_ofBool (value : Bool) : toBool (ofBool value) = .ok value := by
  cases value <;> rfl

end Attribute

end ArrayStore
