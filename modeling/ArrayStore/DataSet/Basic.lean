import ArrayStore.DataArray.Run
import ArrayStore.Disk
import ArrayStore.Keyed

/-!
# Data sets

A `DataSet` holds the arrays of one measurement in the order of adding, and an index of their ids.
Ids are unique, and arrays refer to each other by their handles.

* `DataSet.get?`, `DataSet.handle?`, `DataSet.byId?` : arrays by handle and by id;
* `DataSet.dependencies`, `DataSet.dependencyIds` : the arrays that one was measured against;
* `DataSet.add` : adds an array;
* `DataSet.write` : writes samples of an array;
* `DataSet.linkByIds` : links arrays by the ids of their set arrays.
-/

namespace ArrayStore

/-- The arrays of one measurement and the location that they are stored under. -/
structure DataSet where
  location : String := ""
  disk : Disk := {}
  /-- The arrays in the order of adding. -/
  arrays : List DataArray := []
  /-- The handles of the arrays by their ids. -/
  index : List (String × Handle) := []
  deriving DecidableEq, Repr

namespace DataSet

/-! ## Lookup -/

def size (s : DataSet) : Nat := s.arrays.length

def get? (s : DataSet) (h : Handle) : Option DataArray := s.arrays[h.index]?

def handle? (s : DataSet) (id : String) : Option Handle := Keyed.find? id s.index

def byId? (s : DataSet) (id : String) : Option DataArray := (s.handle? id).bind s.get?

/-- The set arrays of an array; handles of no array are left out. -/
def dependencies (s : DataSet) (a : DataArray) : List DataArray := a.setArrays.filterMap s.get?

def dependencyIds (s : DataSet) (a : DataArray) : List String := (s.dependencies a).map DataArray.id

/-! ## Adding -/

inductive AddFault where
  /-- The id is taken. -/
  | duplicate (id : String)
  /-- An independent variable has set arrays. -/
  | setpointWithSetArrays (id : String)
  /-- A set array is not in the data set. -/
  | foreignHandle (id : String) (handle : Handle)
  deriving DecidableEq, Repr

def AddFault.toError : AddFault → StoreError
  | .duplicate id => .duplicateArray id
  | .setpointWithSetArrays id => .invalidArray id "setpoint arrays cannot have set arrays"
  | .foreignHandle id handle =>
    .invalidArray id ("set array #" ++ toString handle.index ++ " is not part of this data set")

/-- Adds an array behind the others; its handle is the number of arrays before. -/
def add (s : DataSet) (a : DataArray) : Except AddFault DataSet :=
  if (s.handle? a.id).isSome then .error (.duplicate a.id)
  else if a.isSetpoint && !a.setArrays.isEmpty then .error (.setpointWithSetArrays a.id)
  else
    match a.setArrays.find? fun h => s.size ≤ h.index with
    | some h => .error (.foreignHandle a.id h)
    | none =>
      .ok { s with arrays := s.arrays ++ [a], index := Keyed.insert a.id ⟨s.size⟩ s.index }

/-! ## Changing arrays -/

/-- Writes samples of the array behind a handle; there may be no such array. -/
def write (arithmetic : Arithmetic) (s : DataSet) (h : Handle) (w : DataArray.Write) :
    Except DataArray.Fault DataSet :=
  match s.get? h with
  | none => .ok s
  | some a => do
    let a ← a.write arithmetic w
    return { s with arrays := s.arrays.set h.index a }

/-- Gives the array behind a handle new set arrays, if there is one. -/
def link (s : DataSet) (h : Handle) (setArrays : List Handle) : DataSet :=
  { s with arrays := s.arrays.modify h.index fun a => a.linkTo setArrays }

/-- An id that is in no array, and the id of the array that refers to it. -/
structure Unresolved where
  id : String
  missing : String
  deriving DecidableEq, Repr

def Unresolved.toError (u : Unresolved) : StoreError := .unknownSetArray u.id u.missing

/-- The handles of ids, or the first id that is in no array. -/
def handlesOf (s : DataSet) : List String → Except String (List Handle)
  | [] => .ok []
  | id :: ids =>
    match s.handle? id with
    | none => .error id
    | some h => (s.handlesOf ids).map (h :: ·)

/-- Links arrays by the ids of their set arrays, entry by entry. The entries before an unresolved
one stay linked. -/
def linkByIds (s : DataSet) : List (Handle × List String) → DataSet × Except Unresolved Unit
  | [] => (s, .ok ())
  | (h, ids) :: pending =>
    match s.handlesOf ids with
    | .ok setArrays => (s.link h setArrays).linkByIds pending
    | .error missing => (s, .error ⟨((s.get? h).map DataArray.id).getD "", missing⟩)

end DataSet

end ArrayStore
