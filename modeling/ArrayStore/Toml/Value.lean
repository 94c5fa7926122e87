import ArrayStore.Double.Basic
import ArrayStore.Keyed

/-!
# Values of a TOML document

* `Toml.Value` : a value of a document;
* `Toml.Item`, `Toml.Table` : a document while it is built, with the marks that decide whether a
  table may be extended;
* `Toml.Table.insert?` : puts a value at a dotted key;
* `Toml.Table.openTable?`, `Toml.Table.openElement?` : the headers `[a.b]` and `[[a.b]]`;
* `Toml.Table.entries` : the finished table.
-/

namespace ArrayStore.Toml

inductive Value where
  | bool (value : Bool)
  | integer (value : Int)
  | float (value : Double)
  | string (text : String)
  /-- A date, a time, or both, as written. -/
  | dateTime (text : String)
  | array (items : List Value)
  | table (entries : List (String × Value))
  deriving Repr, Inhabited

/-- What stands at a key of a table that is being built. -/
inductive Item where
  | value (value : Value)
  /-- A table. It is implicit if it has come up only on the way to others, and dotted if that was
  in a dotted key. -/
  | table (implicit dotted : Bool) (entries : List (String × Item))
  /-- The elements of an array of tables, the last one first. -/
  | elements (tables : List (List (String × Item)))
  deriving Repr, Inhabited

structure Table where
  implicit : Bool := false
  dotted : Bool := false
  entries : List (String × Item) := []
  deriving Repr, Inhabited

namespace Table

def toItem (t : Table) : Item := .table t.implicit t.dotted t.entries

def find? (t : Table) (key : String) : Option Item := Keyed.find? key t.entries

def put (t : Table) (key : String) (item : Item) : Table :=
  { t with entries := Keyed.insert key item t.entries }

/-- Changes the table at a path, making the tables on the way. A dotted key goes only through
implicit tables; the last element stands for an array of tables. -/
def update? (dotted : Bool) (change : Table → Option Table) : List String → Table → Option Table
  | [], t => change t
  | key :: path, t =>
    match t.find? key with
    | none => do
      let sub ← update? dotted change path { implicit := true, dotted }
      return t.put key sub.toItem
    | some (.table implicit isDotted entries) =>
      if dotted && !implicit then none
      else do
        let sub ← update? dotted change path ⟨implicit, isDotted, entries⟩
        return t.put key sub.toItem
    | some (.elements (last :: others)) => do
      let sub ← update? dotted change path { entries := last }
      return t.put key (.elements (sub.entries :: others))
    | some (.elements []) | some (.value _) => none

/-- Puts a value at a key that is not taken. A table of dotted keys takes no plain key, and any
other table no dotted one. -/
def insertValue? (isPlain : Bool) (key : String) (value : Value) (t : Table) : Option Table :=
  if t.dotted == isPlain then none
  else if (t.find? key).isSome then none
  else some (t.put key (.value value))

def insert? (t : Table) (key : List String) (value : Value) : Option Table :=
  match key.getLast? with
  | none => none
  | some last =>
    let path := key.dropLast
    t.update? true (insertValue? path.isEmpty last value) path

/-- Opens the table at a header. It may have come up only on the way to other headers. -/
def openTable? (t : Table) (header : List String) : Option Table :=
  match header.getLast? with
  | none => none
  | some last =>
    t.update? false (fun parent =>
      match parent.find? last with
      | none => some (parent.put last (.table false false []))
      | some (.table true false entries) => some (parent.put last (.table false false entries))
      | some _ => none) header.dropLast

/-- Opens a further element of the array of tables at a header. -/
def openElement? (t : Table) (header : List String) : Option Table :=
  match header.getLast? with
  | none => none
  | some last =>
    t.update? false (fun parent =>
      match parent.find? last with
      | none => some (parent.put last (.elements [[]]))
      | some (.elements tables) => some (parent.put last (.elements ([] :: tables)))
      | some _ => none) header.dropLast

end Table

mutual

def Item.finish : Item → Value
  | .value v => v
  | .table _ _ entries => .table (Item.finishEntries entries)
  | .elements tables => .array (Item.finishElements tables).reverse

def Item.finishEntries : List (String × Item) → List (String × Value)
  | [] => []
  | (key, item) :: entries => (key, item.finish) :: Item.finishEntries entries

def Item.finishElements : List (List (String × Item)) → List Value
  | [] => []
  | entries :: tables => .table (Item.finishEntries entries) :: Item.finishElements tables

end

def Table.finish (t : Table) : List (String × Value) := Item.finishEntries t.entries

end ArrayStore.Toml
