import ArrayStore.DataArray.Basic

/-!
# Steps on an array

* `DataArray.Write` : the writes of samples, and `DataArray.write` their effect;
* `DataArray.Step`, `DataArray.step` : all changes of an array, those of its building included;
* `DataArray.run` : a sequence of steps in which a refused one changes nothing;
* `DataArray.build` : a sequence of steps that ends at the first refused one.
-/

namespace ArrayStore.DataArray

inductive Write where
  /-- Overwrites the sample of a row of a one-column array. -/
  | sample (row : Nat) (value : Double)
  /-- Overwrites a row. -/
  | row (row : Nat) (values : List Double)
  /-- Appends a row. -/
  | append (values : List Double)
  deriving DecidableEq, Repr

def write (arithmetic : Arithmetic) (a : DataArray) : Write → Except Fault DataArray
  | .sample row value => a.writeRow arithmetic row [value]
  | .row row values => a.writeRow arithmetic row values
  | .append values => a.appendRow values

/-- A write changes the samples and nothing else. -/
theorem write_eq_ok {arithmetic : Arithmetic} {a b : DataArray} {w : Write}
    (h : a.write arithmetic w = .ok b) : ∃ samples, b = { a with samples } := by
  cases w with
  | sample row value => exact writeRow_eq_ok h
  | row row values => exact writeRow_eq_ok h
  | append values => exact appendRow_eq_ok h

/-- A change of an array. -/
inductive Step where
  | name (value : String)
  | label (value : String)
  | units (value : List String)
  | setpoint
  | setArrays (value : List Handle)
  | allocate (rows : Nat)
  | samples (values : List Double)
  | write (write : Write)
  deriving DecidableEq, Repr

def step (arithmetic : Arithmetic) (a : DataArray) : Step → Except Fault DataArray
  | .name value => .ok { a with givenName := some value }
  | .label value => .ok { a with givenLabel := some value }
  | .units value => a.setUnits arithmetic value
  | .setpoint => .ok a.markSetpoint
  | .setArrays value => .ok (a.linkTo value)
  | .allocate rows => a.allocate arithmetic rows
  | .samples values => a.setSamples values
  | .write w => a.write arithmetic w

/-- The array after a step, which is the same if the step is refused. -/
def stepped (arithmetic : Arithmetic) (a : DataArray) (s : Step) : DataArray :=
  match a.step arithmetic s with
  | .ok a => a
  | .error _ => a

/-- The array after a sequence of steps. -/
def run (arithmetic : Arithmetic) (a : DataArray) (steps : List Step) : DataArray :=
  steps.foldl (stepped arithmetic) a

/-- The array that a sequence of steps builds, or the fault of the first refused one. -/
def build (arithmetic : Arithmetic) (id : String) (steps : List Step) : Except Fault DataArray :=
  steps.foldlM (step arithmetic) { id }

end ArrayStore.DataArray
