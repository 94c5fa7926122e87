import ArrayStore.Double.Layout
import ArrayStore.Text.Quoted

/-!
# Faults of configuration sources

* `Config.Scalar`, `Config.Found`, `Config.Expected` : what stands at a key, and what should stand
  there;
* `Config.Source` : where a setting comes from;
* `Config.Fault` : a malformed file, or a setting that does not fit its field;
* `Config.Fault.text?` : the wording; the detail of a malformed file has none.
-/

namespace ArrayStore.Config

/-- A single value. Integers of files are signed; those of variables only if they are negative. -/
inductive Scalar where
  | bool (value : Bool)
  | signed (value : Int)
  | unsigned (value : Nat)
  | float (value : Double)
  | text (value : String)
  deriving DecidableEq, Repr

def Scalar.describe : Scalar → String
  | .bool value => if value then "bool true" else "bool false"
  | .signed value => "signed int `" ++ String.ofList (Text.writeInt value) ++ "`"
  | .unsigned value => "unsigned int `" ++ String.ofList (Text.writeNat value) ++ "`"
  | .float value => "float `" ++ String.ofList (value.text .message) ++ "`"
  | .text value => "string " ++ Text.quoted value

/-- What stands at a key. -/
inductive Found where
  | scalar (value : Scalar)
  | sequence
  | table
  deriving DecidableEq, Repr

def Found.describe : Found → String
  | .scalar value => value.describe
  | .sequence => "sequence"
  | .table => "map"

/-- What a field holds. -/
inductive Expected where
  | text
  | path
  | rowCount
  | level
  | applicationTable
  | storageTable
  deriving DecidableEq, Repr

def Expected.describe : Expected → String
  | .text => "a string"
  | .path => "path string"
  | .rowCount => "usize"
  | .level => "u8"
  | .applicationTable => "struct ApplicationConfig"
  | .storageTable => "struct StorageConfig"

inductive Source where
  /-- A file, by the path that messages show. -/
  | file (shown : String)
  /-- The environment variables. -/
  | environment
  deriving DecidableEq, Repr

def Source.locate (source : Source) (path : List String) : String :=
  match source with
  | .file shown =>
    " for key " ++ Text.quoted (".".intercalate ("default" :: path)) ++ " in " ++ shown ++
      " TOML file"
  | .environment =>
    " for key " ++ Text.quoted (".".intercalate (path.map String.toUpper)) ++
      " in `RUSTDAQ_` environment variable(s)"

/-- Why the sources of a configuration give none. -/
inductive Fault where
  /-- The file is no document of its format. -/
  | malformed
  /-- A setting is of the wrong kind. -/
  | wrongKind (found : Found) (expected : Expected) (path : List String) (source : Source)
  /-- An integer is out of the range of its field. -/
  | outOfRange (found : Found) (expected : Expected) (path : List String) (source : Source)
  deriving DecidableEq, Repr

/-- The path of the key at fault, empty for a malformed file. -/
def Fault.path : Fault → List String
  | .malformed => []
  | .wrongKind _ _ path _ => path
  | .outOfRange _ _ path _ => path

def Fault.text? : Fault → Option String
  | .malformed => none
  | .wrongKind found expected path source =>
    some ("invalid type: found " ++ found.describe ++ ", expected " ++ expected.describe ++
      source.locate path)
  | .outOfRange found expected path source =>
    some ("invalid value " ++ found.describe ++ ", expected " ++ expected.describe ++
      source.locate path)

end ArrayStore.Config
