import ArrayStore.Error
import ArrayStore.Json.Value

/-!
# Snapshots of instruments

A `Snapshot` maps instruments to parameters and these to objects such as `{"value": 0.5}`.

* `Snapshot.insert` : records the value of a parameter;
* `Snapshot.ofInstruments`, `Snapshot.ofDocument` : the snapshot of given instruments, and the one
  that a document describes;
* `Snapshot.values` : the stored texts of all values, ordered by name;
* `Snapshot.same` : equality of snapshots, in which whole parameter objects are compared.
-/

namespace ArrayStore

/-- The parameters of an instrument, ordered by name, with their objects. -/
abbrev Parameters := List (String × Json.Members)

/-- The parameters of every instrument, ordered by name. -/
structure Snapshot where
  instruments : List (String × Parameters) := []
  deriving Repr

namespace Snapshot

/-- Why a document describes no snapshot. -/
inductive Fault where
  /-- There is no object of instruments. -/
  | noInstruments
  /-- The parameters of an instrument are no object. -/
  | malformedParameters (instrument : String)
  /-- A parameter is no object. -/
  | malformedParameter (instrument parameter : String) (value : Json.Value)

def Fault.toError : Fault → StoreError
  | .noInstruments => .decode "snapshot has no 'instruments' object"
  | .malformedParameters instrument =>
    .decode s!"instrument '{instrument}' has malformed 'parameters'"
  | .malformedParameter instrument parameter value =>
    .decode (s!"parameter '{instrument}.{parameter}' is not an object: " ++ value.compact)

/-! ## Building -/

/-- The object of a parameter with the given value, if there is one. -/
def parameterOf (value : Option Json.Value) : Json.Members :=
  match value with
  | some value => [("value", value)]
  | none => []

/-- Records the value of a parameter in the place of an older one. -/
def insert (s : Snapshot) (instrument parameter : String) (value : Option Json.Value) : Snapshot :=
  let parameters := (Keyed.find? instrument s.instruments).getD []
  ⟨Keyed.insert instrument (Keyed.insert parameter (parameterOf value) parameters) s.instruments⟩

/-- The snapshot of instruments with their parameters; the last of equal names stands. -/
def ofInstruments (instruments : List (String × List (String × Json.Members))) : Snapshot :=
  ⟨Keyed.ofList (instruments.map fun (name, parameters) => (name, Keyed.ofList parameters))⟩

/-- The parameters of an instrument of a document, in the order of their names. -/
def parametersOf (instrument : String) :
    List (String × Json.Value) → Except Fault Parameters
  | [] => .ok []
  | (parameter, .object members) :: rest =>
    (parametersOf instrument rest).map ((parameter, members) :: ·)
  | (parameter, value) :: _ => .error (.malformedParameter instrument parameter value)

def readInstrument (name : String) (instrument : Json.Value) : Except Fault Parameters :=
  match instrument.get? "parameters" with
  | none => .ok []
  | some (.object parameters) => parametersOf name parameters
  | some _ => .error (.malformedParameters name)

/-- The instruments of a document, in the order of their names. -/
def readInstruments : List (String × Json.Value) → Except Fault (List (String × Parameters))
  | [] => .ok []
  | (name, instrument) :: rest => do
    let parameters ← readInstrument name instrument
    let instruments ← readInstruments rest
    return (name, parameters) :: instruments

def ofDocument (document : Json.Value) : Except Fault Snapshot :=
  match document.get? "instruments" with
  | some (.object instruments) => (readInstruments instruments).map Snapshot.mk
  | _ => .error .noInstruments

/-! ## Reading -/

/-- The stored text of the value of a parameter, empty if it has none. -/
def valueText (parameter : Json.Members) : String :=
  ((Keyed.find? "value" parameter).map Json.Value.stored).getD ""

/-- The stored texts of all values, ordered by instrument and parameter. -/
def values (s : Snapshot) : List (String × List (String × String)) :=
  s.instruments.map fun (name, parameters) =>
    (name, parameters.map fun (parameter, members) => (parameter, valueText members))

def isEmpty (s : Snapshot) : Bool := s.instruments.isEmpty

def sameParameters : Parameters → Parameters → Bool
  | [], [] => true
  | (k, a) :: as, (l, b) :: bs => k == l && Json.Value.sameMembers a b && sameParameters as bs
  | _, _ => false

def sameInstruments : List (String × Parameters) → List (String × Parameters) → Bool
  | [], [] => true
  | (k, a) :: as, (l, b) :: bs => k == l && sameParameters a b && sameInstruments as bs
  | _, _ => false

def same (s t : Snapshot) : Bool := sameInstruments s.instruments t.instruments

theorem sameParameters_refl (ps : Parameters) : sameParameters ps ps = true := by
  induction ps with
  | nil => rfl
  | cons entry ps ih =>
    rw [sameParameters, ih, Json.Value.sameMembers_refl, beq_self_eq_true, Bool.and_true,
      Bool.and_true]

theorem same_refl (s : Snapshot) : s.same s = true := by
  unfold same
  induction s.instruments with
  | nil => rfl
  | cons entry instruments ih =>
    rw [sameInstruments, ih, sameParameters_refl, beq_self_eq_true, Bool.and_true, Bool.and_true]

end Snapshot

end ArrayStore
