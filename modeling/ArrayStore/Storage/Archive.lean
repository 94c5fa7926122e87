import ArrayStore.Storage.Reading
import ArrayStore.Storage.Writing

/-!
# Archives

A store works on one container, which it opens when it first writes, or when it reads. It stays with
that one until it is forced to open another, reads again, or is closed.

* `Platform` : a container library on a file system;
* `Archive` : a store, and the containers that are there;
* `Archive.write`, `Archive.read`, `Archive.storeSnapshot`, `Archive.close` : the operations on
  containers, with the storage backend.
-/

namespace ArrayStore

/-- A container library on a file system. -/
structure Platform extends Backend where
  /-- The file that a path names. -/
  fileOf : String → String
  /-- Why the container at a path cannot be opened or created. -/
  openFailure? : String → Option StoreError
  /-- Why what has been written to a file is not known to be there when it is closed. -/
  flushFailure? : String → Option String

/-- A store, and the containers that are there. -/
structure Archive where
  store : ContainerStore
  /-- The containers by their files. -/
  containers : List (String × Contents) := []
  /-- The file of the container that is open. -/
  opened? : Option String := none
  deriving DecidableEq, Repr

namespace Archive

def container? (a : Archive) (file : String) : Option Contents := Keyed.find? file a.containers

def put (a : Archive) (file : String) (c : Contents) : Archive :=
  { a with containers := Keyed.insert file c a.containers }

/-- Another container is open. -/
def opening (a : Archive) (path file : String) : Archive :=
  { a with store := { a.store with openPath := some path }, opened? := some file }

/-- Opens the container at a path for writing, and creates it if there is none. If that fails, none
is open. -/
def openToWrite (p : Platform) (path : String) : Session Archive Unit := do
  let a ← get
  match p.openFailure? path with
  | some e =>
    set { a with opened? := none }
    throw e
  | none =>
    let file := p.fileOf path
    set ((a.put file ((a.container? file).getD {})).opening path file)

/-- Works on the open container, and leaves what has been done there. -/
def inOpened (m : Session Contents Unit) : Session Archive Unit := do
  let a ← get
  match a.opened? with
  | none => throw .containerNotOpen
  | some file =>
    let (answer, c) := m.outcome ((a.container? file).getD {})
    set (a.put file c)
    answer

/-- Stores the rows of a data set that have not been stored. Its location only matters if no
container is open, or if the store is forced to replace the arrays. -/
def write (p : Platform) (s : DataSet) (force : Bool) : Session Archive Unit := do
  let a ← get
  if a.opened?.isNone || force then
    openToWrite p (← (a.store.pathOf s).mapError ContainerStore.NoBasename.toError)
  inOpened (p.store a.store.chunking s force)

/-- What the container at a path holds. -/
def openToRead (p : Platform) (a : Archive) (path : String) : Except StoreError Contents :=
  match p.openFailure? path, a.container? (p.fileOf path) with
  | some e, _ => .error e
  | none, none => .error (p.unmet (.container path))
  | none, some c => .ok c

/-- Adds the arrays of a container to a data set. The container is open afterwards. -/
def read (p : Platform) (arithmetic : Arithmetic) (tree : FileTree) (directory : List String) :
    Session (Archive × DataSet) Unit := do
  let (a, s) ← get
  let path ← (a.store.pathToOpen tree directory s).mapError ContainerStore.NoBasename.toError
  let (answer, t) := (p.load arithmetic (← a.openToRead p path)).outcome s
  set (a, t)
  answer
  set (a.opening path (p.fileOf path), t)

/-- Stores the values of a snapshot in the open container. -/
def storeSnapshot (p : Platform) (snapshot : Snapshot) : Session Archive Unit := do
  let a ← get
  inOpened (p.toBackend.storeSnapshot (a.store.openPath.getD "") snapshot)

/-- Closes the container, also if what has been written is not known to be there. -/
def close (p : Platform) : Session Archive Unit := do
  let a ← get
  set { a with store := a.store.close, opened? := none }
  match a.opened?.bind p.flushFailure? with
  | some reason => throw (.backend reason)
  | none => return ()

end Archive

end ArrayStore
