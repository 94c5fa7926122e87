import ArrayStore.Config.Fault

/-!
# Failures of the store

* `StoreError` : every failure that the store reports;
* `StoreError.message` : its wording;
* `StoreError.source?` : the wording of the failure behind it, if there is one.
-/

namespace ArrayStore

/-- Every failure that the store reports. -/
inductive StoreError where
  /-- The sources of the configuration give none. -/
  | config (fault : Config.Fault)
  /-- The configuration, or a location, holds an invalid value. -/
  | configuration (reason : String)
  /-- A failure of the file system. -/
  | io (reason : String)
  /-- The folder of a container could not be created. -/
  | createDirectory (path reason : String)
  /-- A failure of the container library. -/
  | backend (reason : String)
  /-- Rows do not fit the shape of an array. -/
  | shape (reason : String)
  /-- A stored boolean token is neither `True` nor `False`. -/
  | invalidBool (token : String)
  /-- A stored attribute or document could not be decoded. -/
  | decode (reason : String)
  /-- A stored array lacks an attribute. -/
  | missingAttribute (id lacking : String)
  /-- A reference names an array that does not exist. -/
  | unknownSetArray (id missing : String)
  /-- An array id was added twice. -/
  | duplicateArray (id : String)
  /-- An array does not fit the data set. -/
  | invalidArray (id reason : String)
  /-- No container is open. -/
  | containerNotOpen
  /-- The container holds a snapshot already. -/
  | snapshotExists (path : String)
  /-- The operation belongs to a feature that is switched off. -/
  | featureNotEnabled (feature : String)
  /-- Rows times columns leave the machine words. -/
  | indexOverflow
  /-- Samples take more bytes than a buffer can have. -/
  | capacityOverflow
  /-- A text is cut inside a character. -/
  | splitCharacter
  deriving DecidableEq, Repr

namespace StoreError

def message : StoreError → String
  | .config fault => "Configuration error: " ++ fault.text?.getD "malformed file"
  | .configuration reason => "Configuration validation error: " ++ reason
  | .io reason => "I/O error: " ++ reason
  | .createDirectory path reason =>
    "Failed to create directory " ++ Text.quoted path ++ ": " ++ reason
  | .backend reason => "HDF5 error: " ++ reason
  | .shape reason => "Shape error: " ++ reason
  | .invalidBool token => "Cannot convert " ++ Text.quoted token ++ " to a bool"
  | .decode reason => "Attribute decode error: " ++ reason
  | .missingAttribute id lacking => s!"Array '{id}' is missing the '{lacking}' attribute"
  | .unknownSetArray id missing => s!"Array '{id}' references unknown set array '{missing}'"
  | .duplicateArray id => s!"Array '{id}' already exists in the data set"
  | .invalidArray id reason => s!"Invalid data array '{id}': {reason}"
  | .containerNotOpen => "No container file is open"
  | .snapshotExists path => "Instrument snapshot already saved in " ++ Text.quoted path
  | .featureNotEnabled feature =>
    s!"Feature '{feature}' is not enabled. Please build with --features {feature}"
  | .indexOverflow => "Row index out of range"
  | .capacityOverflow => "Capacity overflow"
  | .splitCharacter => "Text cut inside a character"

/-- The wording of the failure behind a failure of the file system. -/
def source? : StoreError → Option String
  | .io reason => some reason
  | .createDirectory _ reason => some reason
  | _ => none

end StoreError

end ArrayStore
