import ArrayStore.Snapshot
import ArrayStore.Storage.Reading

/-!
# Writing to a container

* `attributesOf`, `Backend.createTable` : the table of an array, as it is created;
* `Backend.prepareTable`, `Backend.appendRows`, `Backend.storeArray` : sees to the table of an
  array, and adds the measured rows that it does not have;
* `Backend.store` : stores the arrays of a data set;
* `Backend.storeSnapshot` : stores the values of a snapshot, once for each container.
-/

namespace ArrayStore

/-! ## One array -/

/-- The attributes of the table of an array. Only a dependent array has set arrays. -/
def attributesOf (s : DataSet) (a : DataArray) : List (String × Attribute) :=
  [("label", .text a.label), ("name", .text a.name),
    ("units", .text (Units.toAttribute a.unitList?)), ("is_setpoint", .bool a.isSetpoint)] ++
  if a.isSetpoint then [] else [("set_arrays", .texts (s.dependencyIds a))]

def Backend.tag (b : Backend) (id : String) (entry : String × Attribute) : Session Contents Unit :=
  b.change (.edit id (.tag entry.1 entry.2.encode))

/-- Creates the table of an array, without rows. -/
def Backend.createTable (b : Backend) (chunking : Chunking) (s : DataSet) (a : DataArray) :
    Session Contents Unit := do
  b.change (.create a.id a.width chunking)
  (attributesOf s a).forM (b.tag a.id)

def columnsDiffer (id : String) (columns stored : Nat) : StoreError :=
  .shape s!"array '{id}' has {columns} columns but its storage has {stored}"

def tooShort (id : String) (rows : Nat) : StoreError :=
  .shape s!"array '{id}' is shorter than {rows} rows"

/-- Adds the measured rows of an array that its table does not have. -/
def Backend.appendRows (b : Backend) (a : DataArray) : Session Contents Unit := do
  let t ← b.tableOf (← get) a.id
  let (rows, columns) ← t.extents a.id
  if columns ≠ a.width then throw (columnsDiffer a.id a.width columns)
  else if a.measuredRows ≤ rows then return ()
  else
    match a.samplesBetween? rows a.measuredRows with
    | none => throw (tooShort a.id a.measuredRows)
    | some samples =>
      b.change (.edit a.id (.grow a.measuredRows))
      b.change (.edit a.id (.put rows samples))

/-- Sees to it that an array has a table. If forced to, a table that is there is replaced. -/
def Backend.prepareTable (b : Backend) (chunking : Chunking) (s : DataSet) (force : Bool)
    (a : DataArray) : Session Contents Unit := do
  match (← get).table? a.id with
  | none => b.createTable chunking s a
  | some _ =>
    if force then
      b.change (.unlink a.id)
      b.createTable chunking s a

/-- Stores an array. -/
def Backend.storeArray (b : Backend) (chunking : Chunking) (s : DataSet) (force : Bool)
    (a : DataArray) : Session Contents Unit := do
  b.prepareTable chunking s force a
  b.appendRows a

/-! ## Data sets and snapshots -/

def singleTableReadOnly : StoreError :=
  .configuration "container uses the single-table layout, which is read-only"

/-- Stores the arrays of a data set. If forced to, all their tables are replaced. -/
def Backend.store (b : Backend) (chunking : Chunking) (s : DataSet) (force : Bool) :
    Session Contents Unit := do
  if ← b.holdsSingleTable (← get) then throw singleTableReadOnly
  else s.arrays.forM (b.storeArray chunking s force)

def Backend.storeParameter (b : Backend) (instrument : String) (entry : String × String) :
    Session Contents Unit :=
  b.change (.parameter instrument entry.1 (Attribute.text entry.2).encode)

def Backend.storeInstrument (b : Backend) (entry : String × List (String × String)) :
    Session Contents Unit := do
  b.change (.instrument entry.1)
  entry.2.forM (b.storeParameter entry.1)

/-- Stores the values of a snapshot in the container at a path, unless it holds one. -/
def Backend.storeSnapshot (b : Backend) (path : String) (snapshot : Snapshot) :
    Session Contents Unit := do
  if (← get).snapshot?.isSome then throw (.snapshotExists path)
  else
    b.change .beginSnapshot
    snapshot.values.forM b.storeInstrument

end ArrayStore
