import ArrayStore.Config.Basic
import ArrayStore.Toml.Value

/-!
# Settings

A `Config.Setting` is a value of a configuration source, with the source at every place, so that a
fault can name it.

* `Setting.ofToml` : the settings of a file;
* `Setting.merge` : settings over others. Tables merge key by key, anything else replaces;
* `Setting.toConfig` : the configuration that settings describe; missing fields have their defaults.
-/

namespace ArrayStore.Config

/-- A value of a configuration source. -/
inductive Setting where
  | scalar (value : Scalar) (source : Source)
  | sequence (items : List Setting) (source : Source)
  | table (entries : List (String × Setting)) (source : Source)
  deriving Repr

/-- The settings of a table, ordered by key. -/
abbrev Settings := List (String × Setting)

namespace Setting

/-! ## Files -/

mutual

/-- The setting of a value of a file. Dates and times are tables. -/
def ofToml (source : Source) : Toml.Value → Setting
  | .bool value => .scalar (.bool value) source
  | .integer value => .scalar (.signed value) source
  | .float value => .scalar (.float value) source
  | .string text => .scalar (.text text) source
  | .dateTime _ => .table [] source
  | .array items => .sequence (ofTomlItems source items) source
  | .table entries => .table (ofTomlEntries source entries) source

def ofTomlItems (source : Source) : List Toml.Value → List Setting
  | [] => []
  | item :: items => ofToml source item :: ofTomlItems source items

def ofTomlEntries (source : Source) : List (String × Toml.Value) → Settings
  | [] => []
  | (key, value) :: entries => (key, ofToml source value) :: ofTomlEntries source entries

end

/-! ## Merging -/

mutual

/-- The later setting over the earlier one. -/
def merge (earlier : Setting) : Setting → Setting
  | .table entries source =>
    match earlier with
    | .table old _ => .table (mergeEntries old entries) source
    | _ => .table entries source
  | later => later

def mergeEntries (earlier : Settings) : Settings → Settings
  | [] => earlier
  | (key, later) :: entries =>
    let merged := match Keyed.find? key earlier with
      | some old => merge old later
      | none => later
    mergeEntries (Keyed.insert key merged earlier) entries

end

/-! ## Reading fields -/

/-- What a fault says of a setting. -/
def found : Setting → Found
  | .scalar value _ => .scalar value
  | .sequence .. => .sequence
  | .table .. => .table

def source : Setting → Source
  | .scalar _ source => source
  | .sequence _ source => source
  | .table _ source => source

def wrongKind {α : Type} (s : Setting) (expected : Expected) (path : List String) :
    Except Fault α :=
  .error (.wrongKind s.found expected path s.source)

def toText (s : Setting) (expected : Expected) (path : List String) : Except Fault String :=
  match s with
  | .scalar (.text value) _ => .ok value
  | _ => s.wrongKind expected path

/-- The integer of a setting, if it is below the bound. -/
def toNatural (s : Setting) (bound : Nat) (expected : Expected) (path : List String) :
    Except Fault Nat :=
  let inRange (value : Int) : Except Fault Nat :=
    if 0 ≤ value && value < bound then .ok value.toNat
    else .error (.outOfRange s.found expected path s.source)
  match s with
  | .scalar (.signed value) _ => inRange value
  | .scalar (.unsigned value) _ => inRange value
  | _ => s.wrongKind expected path

/-- A setting at a field, and the key that faults show for it. -/
structure Field where
  name : String
  key : String
  setting : Setting
  deriving Repr

/-- The fields of a section, in the order in which they are read: a table by its keys, a list in the
order of the fields. -/
def fields (s : Setting) (names : List String) (expected : Expected) (path : List String) :
    Except Fault (List Field) :=
  match s with
  | .table entries _ => .ok (entries.map fun (key, setting) => ⟨key, key, setting⟩)
  | .sequence items _ =>
    .ok ((names.zip items).mapIdx fun i (name, setting) => ⟨name, toString i, setting⟩)
  | .scalar .. => s.wrongKind expected path

/-! ## Configurations -/

def setApplication (c : Application) (f : Field) : Except Fault Application :=
  let path := ["application", f.key]
  match f.name with
  | "log_level" => do return { c with logLevel := ← f.setting.toText .text path }
  | _ => .ok c

def setStorage (c : Storage) (f : Field) : Except Fault Storage :=
  let path := ["storage", f.key]
  match f.name with
  | "base_location" => do return { c with baseLocation := ← f.setting.toText .path path }
  | "file_extension" => do return { c with fileExtension := ← f.setting.toText .text path }
  | "chunk_rows" => do
    return { c with chunkRows := ← f.setting.toNatural Word.limit .rowCount path }
  | "compression_level" => do
    return { c with compressionLevel := ← f.setting.toNatural 256 .level path }
  | _ => .ok c

def setSection (c : Config) (key : String) (s : Setting) : Except Fault Config :=
  match key with
  | "application" => do
    let fields ← s.fields ["log_level"] .applicationTable ["application"]
    return { c with application := ← fields.foldlM setApplication {} }
  | "storage" => do
    let fields ← s.fields ["base_location", "file_extension", "chunk_rows", "compression_level"]
      .storageTable ["storage"]
    return { c with storage := ← fields.foldlM setStorage {} }
  | _ => .ok c

def toConfig (settings : Settings) : Except Fault Config :=
  settings.foldlM (fun c (key, s) => setSection c key s) {}

end Setting

end ArrayStore.Config
