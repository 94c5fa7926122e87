import ArrayStore.Double.Layout
import ArrayStore.Keyed

/-!
# Values of a document

* `Json.Number`, `Json.Value` : numbers are integers of 64 bits or finite doubles, objects are
  ordered by key;
* `Json.Value.same` : equality of values, in which an integer never equals a double and the two
  zeros are equal;
* `Json.Value.compact` : the text without blanks;
* `Json.Value.stored` : the text that a value is stored as.
-/

namespace ArrayStore.Json

/-- A number: integers keep apart from doubles. -/
inductive Number where
  | integer (value : Int)
  | double (value : Double)
  deriving DecidableEq, Repr

/-- A value of a document. Objects are lists ordered by key. -/
inductive Value where
  | null
  | bool (value : Bool)
  | number (value : Number)
  | string (text : String)
  | array (items : List Value)
  | object (members : List (String × Value))
  deriving Repr, Inhabited

abbrev Members := List (String × Value)

/-! ## Equality -/

/-- Integers are equal as integers and doubles as numbers. -/
def Number.same : Number → Number → Bool
  | .integer a, .integer b => a == b
  | .double a, .double b => a.sameNumber b
  | _, _ => false

mutual

def Value.same : Value → Value → Bool
  | .null, .null => true
  | .bool a, .bool b => a == b
  | .number a, .number b => a.same b
  | .string a, .string b => a == b
  | .array as, .array bs => Value.sameItems as bs
  | .object as, .object bs => Value.sameMembers as bs
  | _, _ => false

def Value.sameItems : List Value → List Value → Bool
  | [], [] => true
  | a :: as, b :: bs => a.same b && Value.sameItems as bs
  | _, _ => false

def Value.sameMembers : List (String × Value) → List (String × Value) → Bool
  | [], [] => true
  | (k, a) :: as, (l, b) :: bs => k == l && a.same b && Value.sameMembers as bs
  | _, _ => false

end

theorem Number.same_refl (n : Number) : n.same n = true := by
  cases n <;> simp [Number.same, Double.sameNumber]

mutual

theorem Value.same_refl : ∀ v : Value, v.same v = true
  | .null => rfl
  | .bool b => beq_self_eq_true b
  | .number n => n.same_refl
  | .string s => beq_self_eq_true s
  | .array items => Value.sameItems_refl items
  | .object members => Value.sameMembers_refl members

theorem Value.sameItems_refl : ∀ items : List Value, Value.sameItems items items = true
  | [] => rfl
  | item :: items => by
    rw [Value.sameItems, item.same_refl, Value.sameItems_refl items, Bool.and_true]

theorem Value.sameMembers_refl : ∀ members : List (String × Value),
    Value.sameMembers members members = true
  | [] => rfl
  | (key, value) :: members => by
    rw [Value.sameMembers, value.same_refl, Value.sameMembers_refl members, beq_self_eq_true,
      Bool.and_true, Bool.and_true]

end

/-! ## Text -/

/-- A character of a string: quote, backslash and the characters below the space are escaped. -/
def escapeChar (c : Char) : List Char :=
  if c = '"' then ['\\', '"']
  else if c = '\\' then ['\\', '\\']
  else if c = '\x08' then ['\\', 'b']
  else if c = '\x0c' then ['\\', 'f']
  else if c = '\n' then ['\\', 'n']
  else if c = '\r' then ['\\', 'r']
  else if c = '\t' then ['\\', 't']
  else if c.toNat < 0x20 then
    ['\\', 'u', '0', '0', Nat.digitChar (c.toNat / 16), Nat.digitChar (c.toNat % 16)]
  else [c]

def writeString (s : String) : List Char :=
  '"' :: s.toList.flatMap escapeChar ++ ['"']

/-- Integers in base ten, doubles as the shortest decimal that reads back. -/
def Number.write : Number → List Char
  | .integer value => Text.writeInt value
  | .double value => value.text .stored

mutual

def Value.write : Value → List Char
  | .null => "null".toList
  | .bool true => "true".toList
  | .bool false => "false".toList
  | .number n => n.write
  | .string s => writeString s
  | .array [] => ['[', ']']
  | .array (item :: items) => '[' :: item.write ++ Value.writeItems items
  | .object [] => ['\x7b', '\x7d']
  | .object ((key, value) :: members) =>
    '\x7b' :: writeString key ++ ':' :: value.write ++ Value.writeMembers members

/-- The further items of an array and its closing bracket. -/
def Value.writeItems : List Value → List Char
  | [] => [']']
  | item :: items => ',' :: item.write ++ Value.writeItems items

/-- The further members of an object and its closing brace. -/
def Value.writeMembers : List (String × Value) → List Char
  | [] => ['\x7d']
  | (key, value) :: members =>
    ',' :: writeString key ++ ':' :: value.write ++ Value.writeMembers members

end

/-- The text of a value without blanks. -/
def Value.compact (v : Value) : String := String.ofList v.write

/-- The text that a value is stored as: a string itself, `None` for null, `True` or `False`, and
the compact text of anything else. -/
def Value.stored : Value → String
  | .string text => text
  | .null => "None"
  | .bool true => "True"
  | .bool false => "False"
  | .number n => String.ofList n.write
  | .array items => (Value.array items).compact
  | .object members => (Value.object members).compact

/-- The value at a key of an object; none in any other value. -/
def Value.get? (key : String) : Value → Option Value
  | .object members => Keyed.find? key members
  | _ => none

end ArrayStore.Json
