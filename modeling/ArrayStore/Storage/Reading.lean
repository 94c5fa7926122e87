import ArrayStore.ListLiteral.Parser
import ArrayStore.Storage.Contents
import ArrayStore.Units

/-!
# Reading a container

* `Backend.readText`, `Backend.readTexts` : an attribute with a text, and one with several;
* `Backend.readArray` : the array of a table, and the ids of its set arrays; `DataArray.fill` : its
  units and samples;
* `Backend.loadTables` : adds the arrays of all tables and links them afterwards;
* `Backend.loadSingleTable` : adds the columns of a container that holds all arrays in one table;
* `Backend.load` : adds the arrays of a container to a data set.
-/

namespace ArrayStore

/-! ## Attributes -/

def notText (name kind : String) : StoreError :=
  .decode s!"attribute '{name}' has non-text type {kind}"

/-- The text of an attribute, if it is there. -/
def Backend.readText (b : Backend) (attributes : List (String × StoredAttribute)) (name : String) :
    Except StoreError (Option String) :=
  match attributes.lookup name with
  | none => .ok none
  | some (.other kind _) => .error (notText name kind)
  | some (.text (.list _)) => .error (b.unmet (.scalar name))
  | some (.text (.scalar bytes)) => (Attribute.decode bytes).map some

/-- The texts of an attribute, if it is there. A single text is a list of one. -/
def readTexts (attributes : List (String × StoredAttribute)) (name : String) :
    Except StoreError (Option (List String)) :=
  match attributes.lookup name with
  | none => .ok none
  | some (.other _ (some 0)) => .ok (some [])
  | some (.other kind _) => .error (notText name kind)
  | some (.text (.scalar bytes)) => (Attribute.decode bytes).map fun text => some [text]
  | some (.text (.list entries)) => (entries.mapM Attribute.decode).map some

/-- An attribute that has to be there. -/
def required {α : Type} (id name : String) : Option α → Except StoreError α
  | some value => .ok value
  | none => .error (.missingAttribute id name)

/-! ## Tables -/

/-- The extents of a table, in brackets. -/
def StoredTable.shapeText (t : StoredTable) : String :=
  "[" ++ ", ".intercalate (t.shape.map toString) ++ "]"

/-- The rows and the columns of the table of an array. -/
def StoredTable.extents (id : String) (t : StoredTable) : Except StoreError (Nat × Nat) :=
  match t.shape with
  | [rows, columns] => .ok (rows, columns)
  | _ => .error (.shape (s!"stored array '{id}' has shape " ++ t.shapeText ++
      ", expected (rows, columns)"))

/-- The samples of a table row by row, and its columns. A list of samples is one column. -/
def StoredTable.read (id : String) (t : StoredTable) : Except StoreError (List Double × Nat) :=
  match t.shape with
  | [_] => .ok (t.samples, 1)
  | [_, columns] => .ok (t.samples, columns)
  | shape =>
    let dimensions := shape.length
    .error (.shape s!"stored array '{id}' has {dimensions} dimensions")

/-- The samples of one column. -/
def columnOf (columns column : Nat) (samples : List Double) : List Double :=
  (DataArray.pieces columns (samples.length / columns) samples).filterMap (·[column]?)

/-! ## Arrays -/

/-- The flag of an independent variable. -/
def Backend.readIsSetpoint (b : Backend) (id : String)
    (attributes : List (String × StoredAttribute)) : Except StoreError Bool := do
  Attribute.toBool (← required id "is_setpoint" (← b.readText attributes "is_setpoint"))

/-- The ids of the set arrays. An independent variable has none. -/
def readSetArrays (id : String) (attributes : List (String × StoredAttribute)) (isSetpoint : Bool) :
    Except StoreError (List String) := do
  if isSetpoint then return []
  else required id "set_arrays" (← readTexts attributes "set_arrays")

/-- Gives an array the units and the samples that have been read. If the units do not fit the
columns, only the first column is kept, and of the units a single one. -/
def DataArray.fill (arithmetic : Arithmetic) (a : DataArray) (units : List String)
    (columns : Nat) (samples : List Double) : Except Fault DataArray := do
  if widthOf units = columns then (← a.setUnits arithmetic units).setSamples samples
  else
    let a ← if units.length = 1 then a.setUnits arithmetic units else pure a
    a.setSamples (columnOf (max 1 columns) 0 samples)

/-- The array of a table, and the ids of its set arrays. -/
def Backend.readArray (b : Backend) (arithmetic : Arithmetic) (id : String) (t : StoredTable) :
    Except StoreError (DataArray × List String) := do
  let label ← b.readText t.attributes "label"
  let name ← b.readText t.attributes "name"
  let units ← b.readText t.attributes "units"
  let isSetpoint ← b.readIsSetpoint id t.attributes
  let ids ← readSetArrays id t.attributes isSetpoint
  let (samples, columns) ← t.read id
  let a : DataArray := { id, givenName := name, givenLabel := label, isSetpoint }
  let units := (units.bind Units.ofAttribute).getD []
  let a ← (a.fill arithmetic units columns samples).mapError DataArray.Fault.toError
  return (a, ids)

/-! ## Data sets -/

def addArray (a : DataArray) : Session DataSet Handle := do
  let s ← get
  set (← (s.add a).mapError DataSet.AddFault.toError)
  return ⟨s.size⟩

/-- Links arrays by ids, up to the first one that is unknown. -/
def linkArrays (pending : List (Handle × List String)) : Session DataSet Unit := do
  let (s, answer) := (← get).linkByIds pending
  set s
  answer.mapError DataSet.Unresolved.toError

/-- Adds the array of a table. -/
def Backend.addTable (b : Backend) (arithmetic : Arithmetic) (entry : String × StoredTable) :
    Session DataSet (Handle × List String) := do
  let (a, ids) ← b.readArray arithmetic entry.1 entry.2
  return (← addArray a, ids)

/-- Adds the arrays of all tables, then links those that have set arrays. -/
def Backend.loadTables (b : Backend) (arithmetic : Arithmetic)
    (tables : List (String × StoredTable)) : Session DataSet Unit := do
  let pending ← tables.mapM (b.addTable arithmetic)
  linkArrays (pending.filter fun entry => !entry.2.isEmpty)

/-- The arrays are in one table: it is there, and the group of the arrays is marked. -/
def Backend.holdsSingleTable (b : Backend) (c : Contents) : Except StoreError Bool := do
  let tag ← b.readText c.attributes Container.layoutAttribute
  return tag == some Container.singleTableTag && (c.table? Container.singleTable).isSome

/-- The entries of an attribute that holds a list literal, none if it holds another text. -/
def Backend.readList (b : Backend) (t : StoredTable) (name : String) :
    Except StoreError (List (Option String)) := do
  return ((← b.readText t.attributes name).bind ListLiteral.parse).getD []

/-- The units of a column, if its text reads as a single one. -/
def columnUnits (unit? : Option String) : List String :=
  match unit?.bind Units.ofAttribute with
  | some [unit] => [unit]
  | _ => []

/-- The array of a column. -/
def DataArray.ofColumn (arithmetic : Arithmetic) (id : String) (name? label? unit? : Option String)
    (samples : List Double) : Except Fault DataArray := do
  let a : DataArray := { id, givenName := name?, givenLabel := label? }
  (← a.setUnits arithmetic (columnUnits unit?)).setSamples samples

/-- Adds the array of a column. A list that is too short gives it no name, label or unit. -/
def addColumn (arithmetic : Arithmetic) (names labels units : List (Option String)) (columns : Nat)
    (samples : List Double) (entry : String × Nat) : Session DataSet Unit := do
  let (id, column) := entry
  let a ← (DataArray.ofColumn arithmetic id names[column]?.join labels[column]?.join
    units[column]?.join (columnOf columns column samples)).mapError DataArray.Fault.toError
  let _ ← addArray a

def StoredTable.columnCount (t : StoredTable) : Except StoreError Nat :=
  match t.shape with
  | [_, columns] => .ok columns
  | _ => .error (.shape ("single-table layout expects a 2-D table, found shape " ++ t.shapeText))

def wrongColumnNames (count columns : Nat) : StoreError :=
  .shape s!"{count} column names for a table of {columns} columns"

/-- Adds an array for each column of the table. -/
def Backend.loadSingleTable (b : Backend) (arithmetic : Arithmetic) (c : Contents) :
    Session DataSet Unit := do
  let t ← b.tableOf c Container.singleTable
  let columns ← t.columnCount
  let ids ← required Container.singleTable "column names" (← readTexts t.attributes "column names")
  if ids.length ≠ columns then throw (wrongColumnNames ids.length columns)
  else if columns = 0 then return ()
  else
    let labels ← b.readList t "labels"
    let names ← b.readList t "names"
    let units ← b.readList t "units"
    ids.zipIdx.forM (addColumn arithmetic names labels units columns t.samples)

/-- Adds the arrays of a container to a data set. -/
def Backend.load (b : Backend) (arithmetic : Arithmetic) (c : Contents) :
    Session DataSet Unit := do
  if ← b.holdsSingleTable c then b.loadSingleTable arithmetic c
  else b.loadTables arithmetic c.tables

end ArrayStore
