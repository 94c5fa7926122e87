import ArrayStore.Error

/-!
# Configuration

* `Config` : the settings of the application and of the storage, with their defaults;
* `Config.Invalid`, `Config.check` : the first setting that is out of range;
* `Config.validate` : the same as a failure of the store.
-/

namespace ArrayStore

structure Config.Application where
  logLevel : String := "info"
  deriving DecidableEq, Repr, Inhabited

structure Config.Storage where
  /-- The folder that locations are joined to. -/
  baseLocation : String := "./data"
  /-- The extension of containers, without the dot. -/
  fileExtension : String := "hdf5"
  /-- The rows of a chunk of a growing array. -/
  chunkRows : Nat := 64
  /-- The compression, from none at zero to the strongest at nine. -/
  compressionLevel : Nat := 0
  deriving DecidableEq, Repr, Inhabited

structure Config where
  application : Config.Application := {}
  storage : Config.Storage := {}
  deriving DecidableEq, Repr, Inhabited

namespace Config

/-- The names of the log levels, from the most verbose on. -/
def logLevels : List String := ["trace", "debug", "info", "warn", "error"]

inductive Invalid where
  | logLevel (value : String)
  | fileExtension (value : String)
  | chunkRows
  | compressionLevel (value : Nat)
  deriving DecidableEq, Repr

def Invalid.text : Invalid → String
  | .logLevel value =>
    s!"Invalid log_level '{value}'. Must be one of: " ++ ", ".intercalate logLevels
  | .fileExtension value =>
    s!"Invalid file_extension '{value}'. Expected a bare extension such as 'hdf5'"
  | .chunkRows => "chunk_rows must be at least 1"
  | .compressionLevel value => s!"Invalid compression_level {value}. Must be 0-9"

/-- An extension is bare if it is not empty and has no dot in front. -/
def isBareExtension (extension : String) : Bool :=
  match extension.toList with
  | [] => false
  | c :: _ => c != '.'

/-- The first setting that is out of range. -/
def check (c : Config) : Except Invalid Unit :=
  if !logLevels.contains c.application.logLevel then .error (.logLevel c.application.logLevel)
  else if !isBareExtension c.storage.fileExtension then
    .error (.fileExtension c.storage.fileExtension)
  else if c.storage.chunkRows = 0 then .error .chunkRows
  else if 9 < c.storage.compressionLevel then
    .error (.compressionLevel c.storage.compressionLevel)
  else .ok ()

def validate (c : Config) : Except StoreError Config :=
  match c.check with
  | .ok () => .ok c
  | .error invalid => .error (.configuration invalid.text)

end Config

end ArrayStore
