import ArrayStore.Config.Basic
import ArrayStore.Json.Node

/-!
# Configurations in documents

A configuration is an object, and so are its two sections; each may also be a list in the order of
its fields. Missing fields have their defaults. Keys of no field are ignored, a field that is given
twice is refused.

* `Config.ofNode?` : the configuration of a document;
* `Config.ofText?` : the configuration of the document that a text holds.
-/

namespace ArrayStore.Config
open Json

def textOf? : Node → Option String
  | .string text => text
  | _ => none

def naturalBelow? (bound : Nat) : Node → Option Nat
  | .number n =>
    match n.number? with
    | some (.integer i) => if 0 ≤ i && i < bound then some i.toNat else none
    | _ => none
  | _ => none

/-- The members of an object as fields: every key is a text, and no field is given twice. -/
def fieldsOf? (fields : List String) (members : List (Option String × Node)) :
    Option (List (String × Node)) := do
  let named ← members.mapM fun (key, node) => key.map fun key => (key, node)
  let known := named.filter fun (key, _) => fields.contains key
  if fields.all fun field => (known.filter fun (key, _) => key == field).length ≤ 1 then
    some known
  else none

/-- The nodes of the fields of an object or of a list in the order of the fields. -/
def sectionOf? (fields : List String) : Node → Option (List (String × Node))
  | .object members => fieldsOf? fields members
  | .array items => if items.length ≤ fields.length then some (fields.zip items) else none
  | _ => none

/-- The value of a field, or the default if it is missing. -/
def fieldOr {α : Type} (named : List (String × Node)) (field : String) (default : α)
    (read : Node → Option α) : Option α :=
  match named.lookup field with
  | none => some default
  | some node => read node

def applicationOf? (node : Node) : Option Application := do
  let named ← sectionOf? ["log_level"] node
  let logLevel ← fieldOr named "log_level" ({} : Application).logLevel textOf?
  return { logLevel }

def storageOf? (node : Node) : Option Storage := do
  let named ← sectionOf?
    ["base_location", "file_extension", "chunk_rows", "compression_level"] node
  let defaults : Storage := {}
  let baseLocation ← fieldOr named "base_location" defaults.baseLocation textOf?
  let fileExtension ← fieldOr named "file_extension" defaults.fileExtension textOf?
  let chunkRows ← fieldOr named "chunk_rows" defaults.chunkRows (naturalBelow? Word.limit)
  let compressionLevel ←
    fieldOr named "compression_level" defaults.compressionLevel (naturalBelow? 256)
  return { baseLocation, fileExtension, chunkRows, compressionLevel }

def ofNode? (node : Node) : Option Config := do
  let named ← sectionOf? ["application", "storage"] node
  let application ← fieldOr named "application" {} applicationOf?
  let storage ← fieldOr named "storage" {} storageOf?
  return { application, storage }

def ofText? (text : String) : Option Config := (Node.read? text).bind ofNode?

end ArrayStore.Config
