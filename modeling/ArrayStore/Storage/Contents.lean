import ArrayStore.Attribute
import ArrayStore.Container
import ArrayStore.Keyed

/-!
# Contents of a container

What the container library keeps of the arrays and of the snapshot, and what it can be asked to
change. A name is a single link: an id with a slash would lead through other groups.

* `StoredAttribute`, `Chunking`, `StoredTable`, `Contents` : what is kept;
* `StoredTable.Edit`, `StoredTable.edit?` : the changes of a table;
* `Contents.Change`, `Contents.changed?` : all changes, none where there is nothing to change;
* `Backend`, `Backend.apply` : a library, which may fail a change that could be made, and stores
  some texts only;
* `Session`, `Session.outcome` : a sequence of operations, which leaves what has been done when it
  ends at a failure.
-/

namespace ArrayStore

/-- An attribute as it is stored: a text of any kind by its bytes, or no text. -/
inductive StoredAttribute where
  | text (value : Encoded)
  /-- The name of its type, and the number of its entries unless it is a single one. -/
  | other (kind : String) (entries? : Option Nat)
  deriving DecidableEq, Repr

/-- The bytes of the texts of an attribute. -/
def Encoded.texts : Encoded → List (List UInt8)
  | .scalar bytes => [bytes]
  | .list entries => entries

/-- How the rows of a growing table are stored. -/
structure Chunking where
  chunkRows : Nat
  compressionLevel : Nat
  deriving DecidableEq, Repr

/-- How a store stores the rows of its tables. -/
def ContainerStore.chunking (c : ContainerStore) : Chunking := ⟨c.chunkRows, c.compressionLevel⟩

/-- A table of samples. -/
structure StoredTable where
  /-- The extents of its dimensions, the rows first. -/
  shape : List Nat
  samples : List Double
  complete : samples.length = shape.foldr (· * ·) 1
  /-- How its rows are stored, if it can grow. -/
  chunking? : Option Chunking := none
  attributes : List (String × StoredAttribute) := []
  deriving DecidableEq, Repr

namespace StoredTable

/-- A growing table without rows. -/
def empty (columns : Nat) (chunking : Chunking) : StoredTable :=
  { shape := [0, columns], samples := [], chunking? := some chunking,
    complete := (Nat.zero_mul _).symm }

/-- A change of a table. -/
inductive Edit where
  /-- Gives it an attribute. -/
  | tag (name : String) (value : Encoded)
  /-- Gives it so many rows. -/
  | grow (rows : Nat)
  /-- Puts the samples of rows from one row on. -/
  | put (first : Nat) (samples : List Double)
  deriving DecidableEq, Repr

def tag? (t : StoredTable) (name : String) (value : Encoded) : Option StoredTable :=
  if (t.attributes.lookup name).isSome then none
  else some { t with attributes := t.attributes ++ [(name, .text value)] }

/-- New rows hold NaN. -/
def grow? (t : StoredTable) (rows : Nat) : Option StoredTable :=
  match t.chunking?, t.shape with
  | some _, [_, columns] =>
    some { t with
      shape := [rows, columns]
      samples := (t.samples.rightpad (rows * columns) Double.nan).take (rows * columns)
      complete := by
        rw [List.length_take, List.length_rightpad, Nat.min_eq_left (Nat.le_max_left ..)]
        exact congrArg (rows * ·) (Nat.mul_one columns).symm }
  | _, _ => none

def put? (t : StoredTable) (first : Nat) (samples : List Double) : Option StoredTable :=
  match t.shape with
  | [_, columns] =>
    let start := first * columns
    let stop := start + samples.length
    if h : stop ≤ t.samples.length then
      some { t with
        samples := t.samples.take start ++ samples ++ t.samples.drop stop
        complete := by
          rw [← t.complete, List.length_append, List.length_append, List.length_take,
            List.length_drop]
          omega }
    else none
  | _ => none

/-- The table after a change, none if it cannot be changed so. -/
def edit? (t : StoredTable) : Edit → Option StoredTable
  | .tag name value => t.tag? name value
  | .grow rows => t.grow? rows
  | .put first samples => t.put? first samples

end StoredTable

/-- What a container holds of the arrays and of the snapshot. -/
structure Contents where
  /-- The attributes of the group of the arrays. -/
  attributes : List (String × StoredAttribute) := []
  /-- The tables of the arrays, in the order of their ids. -/
  tables : List (String × StoredTable) := []
  /-- The parameters of each instrument, if a snapshot has been begun. -/
  snapshot? : Option (List (String × List (String × StoredAttribute))) := none
  deriving DecidableEq, Repr

namespace Contents

def table? (c : Contents) (id : String) : Option StoredTable := Keyed.find? id c.tables

def putTable (c : Contents) (id : String) (t : StoredTable) : Contents :=
  { c with tables := Keyed.insert id t c.tables }

/-- A change that a library is asked for. -/
inductive Change where
  | create (id : String) (columns : Nat) (chunking : Chunking)
  | unlink (id : String)
  | edit (id : String) (edit : StoredTable.Edit)
  /-- Begins the snapshot. -/
  | beginSnapshot
  | instrument (name : String)
  | parameter (instrument name : String) (value : Encoded)
  deriving DecidableEq, Repr

/-- The bytes of the texts that a change stores. -/
def Change.texts : Change → List (List UInt8)
  | .edit _ (.tag _ value) => value.texts
  | .parameter _ _ value => value.texts
  | _ => []

/-- The contents after a change, none if there is nothing that could be changed so. -/
def changed? (c : Contents) : Change → Option Contents
  | .create id columns chunking =>
    if (c.table? id).isSome then none else some (c.putTable id (StoredTable.empty columns chunking))
  | .unlink id =>
    if (c.table? id).isSome then some { c with tables := Keyed.erase id c.tables } else none
  | .edit id edit => do
    let t ← c.table? id
    let t ← t.edit? edit
    return c.putTable id t
  | .beginSnapshot => if c.snapshot?.isSome then none else some { c with snapshot? := some [] }
  | .instrument name => do
    let instruments ← c.snapshot?
    if (Keyed.find? name instruments).isSome then none
    else some { c with snapshot? := some (Keyed.insert name [] instruments) }
  | .parameter instrument name value => do
    let instruments ← c.snapshot?
    let parameters ← Keyed.find? instrument instruments
    if (Keyed.find? name parameters).isSome then none
    else
      let parameters := Keyed.insert name (.text value) parameters
      some { c with snapshot? := some (Keyed.insert instrument parameters instruments) }

end Contents

/-! ## The library -/

/-- What a library can be asked for in vain. -/
inductive Unmet where
  | change (change : Contents.Change)
  /-- An attribute with several entries is read as one text. -/
  | scalar (name : String)
  /-- There is no such table. -/
  | table (id : String)
  /-- There is no container at a path. -/
  | container (path : String)
  deriving DecidableEq, Repr

/-- A container library. -/
structure Backend where
  /-- Why the text of some bytes cannot be stored: a zero byte would end it early. -/
  unstorable? : List UInt8 → Option String
  /-- Why a change that could be made fails, for want of space for instance. -/
  failure? : Contents → Contents.Change → Option String
  /-- What it says when it is asked in vain. -/
  wording : Unmet → String

def Backend.unmet (b : Backend) (request : Unmet) : StoreError := .backend (b.wording request)

def cannotStore (reason : String) : StoreError :=
  .decode ("cannot store attribute text: " ++ reason)

/-- The contents after a change. Texts that cannot be stored are found before it is asked for. -/
def Backend.apply (b : Backend) (c : Contents) (change : Contents.Change) :
    Except StoreError Contents :=
  match change.texts.findSome? b.unstorable? with
  | some reason => .error (cannotStore reason)
  | none =>
    match c.changed? change with
    | none => .error (b.unmet (.change change))
    | some d =>
      match b.failure? c change with
      | some reason => .error (.backend reason)
      | none => .ok d

/-! ## Sequences of operations -/

/-- A sequence of operations on a state. It ends at the first failure, and leaves what has been
done. -/
abbrev Session (σ : Type) := ExceptT StoreError (StateM σ)

/-- What a sequence of operations answers, and the state it leaves. -/
def Session.outcome {σ α : Type} (m : Session σ α) (s : σ) : Except StoreError α × σ :=
  (m.run.run s).run

/-- Asks the library for a change. -/
def Backend.change (b : Backend) (change : Contents.Change) : Session Contents Unit := do
  set (← b.apply (← get) change)

/-- The table of an id. -/
def Backend.tableOf (b : Backend) (c : Contents) (id : String) : Except StoreError StoredTable :=
  match c.table? id with
  | some t => .ok t
  | none => .error (b.unmet (.table id))

end ArrayStore
