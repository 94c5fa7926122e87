import ArrayStore.Config.Basic
import ArrayStore.DataSet.Basic
import ArrayStore.FileTree
import ArrayStore.Snapshot

/-!
# Containers

A data set at the location `runs/iv` is stored in the container `runs/iv/iv.hdf5`.

* `Container.dataGroup`, `Container.snapshotGroup`, … : the names of groups, tables and tags in a
  container;
* `ContainerStore` : how containers are named and laid out;
* `ContainerStore.pathOf` : the path of the container of a data set;
* `ContainerStore.pathToOpen` : the path that reading opens, which is the location itself if that is
  a file;
* `ContainerStore.write`, `ContainerStore.read`, `ContainerStore.storeSnapshot`,
  `ContainerStore.close` : the operations on a container without the storage backend, where only
  closing is there. With it they are the ones of an `Archive`.
-/

namespace ArrayStore

namespace Container

def dataGroup : String := "Data Arrays"

def snapshotGroup : String := "Meta-data"

/-- The tag of a container that holds all arrays in one table. -/
def singleTableTag : String := "QCodes hdf5 v0.1"

/-- The table of such a container. -/
def singleTable : String := "Data"

/-- The attribute that holds the tag. -/
def layoutAttribute : String := "datasaving_format"

end Container

/-- How containers are named and laid out. -/
structure ContainerStore where
  extension : String
  chunkRows : Nat
  compressionLevel : Nat
  /-- The path of the open container. -/
  openPath : Option String := none
  deriving DecidableEq, Repr

namespace ContainerStore

/-- The store of a configuration. A chunk has one row at least. -/
def ofConfig (settings : Config.Storage) : ContainerStore :=
  { extension := settings.fileExtension, chunkRows := max 1 settings.chunkRows,
    compressionLevel := settings.compressionLevel }

def standard : ContainerStore := ofConfig {}

/-! ## Paths -/

/-- The location has no last component to name the container by. -/
structure NoBasename where
  location : String
  deriving DecidableEq, Repr

def NoBasename.toError (fault : NoBasename) : StoreError :=
  .configuration s!"data set location '{fault.location}' has no basename"

/-- The location of the container, relative to the base directory. -/
def locationOf (c : ContainerStore) (location : String) : Except NoBasename String :=
  let folder := Path.trimSeparators location.toList
  match Path.fileName? folder with
  | some name => .ok (String.ofList (folder ++ ['/'] ++ name ++ ['.'] ++ c.extension.toList))
  | none => .error ⟨location⟩

def pathOf (c : ContainerStore) (s : DataSet) : Except NoBasename String :=
  (c.locationOf s.location).map s.disk.locate

/-- The path that reading opens, with the files of a tree and a working directory in it. -/
def pathToOpen (c : ContainerStore) (tree : FileTree) (directory : List String) (s : DataSet) :
    Except NoBasename String :=
  let direct := s.disk.locate s.location
  if tree.isFile directory direct then .ok direct else c.pathOf s

/-! ## Operations -/

def backendOff : StoreError := .featureNotEnabled "storage_hdf5"

/-- Stores the rows of a data set; refused without the storage backend. -/
def write (_ : ContainerStore) (_ : DataSet) (_force : Bool) : Except StoreError ContainerStore :=
  .error backendOff

/-- Loads the arrays of a container; refused without the storage backend. -/
def read (_ : ContainerStore) (_ : DataSet) : Except StoreError (ContainerStore × DataSet) :=
  .error backendOff

/-- Stores a snapshot; refused without the storage backend. -/
def storeSnapshot (_ : ContainerStore) (_ : Snapshot) : Except StoreError ContainerStore :=
  .error backendOff

def close (c : ContainerStore) : ContainerStore := { c with openPath := none }

end ContainerStore

end ArrayStore
