import ArrayStore.Double.Basic
import ArrayStore.Error

/-!
# Measurement arrays

A `DataArray` has an id, metadata and row-major samples. Its unit list fixes the number of columns:
one for no unit or one unit, three for three units. Rows that have not been measured hold NaN.

* `DataArray.width`, `DataArray.rowCount`, `DataArray.rows` : the shape, and the samples as a
  list of rows;
* `DataArray.setUnits`, `DataArray.markSetpoint`, `DataArray.linkTo`, `DataArray.allocate`,
  `DataArray.setSamples` : how an array is built;
* `DataArray.readRow`, `DataArray.writeRow`, `DataArray.appendRow` : single rows;
* `DataArray.samplesBetween?` : the samples of consecutive rows;
* `DataArray.measuredRows` : the number of leading rows without NaN;
* `DataArray.Fault` : why an operation is refused, or breaks off.

Rows times columns are machine words, so the operations that multiply them depend on the
`Arithmetic` of the build.
-/

namespace ArrayStore

/-- The position of an array in its data set, in the order of adding. -/
structure Handle where
  index : Nat
  deriving DecidableEq, Repr

/-- A named sequence of samples with its metadata. -/
structure DataArray where
  /-- The key within the data set. -/
  id : String
  /-- The name, if it is not the id. -/
  givenName : Option String := none
  /-- The label, if it is not the id. -/
  givenLabel : Option String := none
  /-- The units, one for each column; none for a single column without unit. -/
  units : List String := []
  /-- Is the array an independent variable? -/
  isSetpoint : Bool := false
  /-- The arrays that this one was measured against. -/
  setArrays : List Handle := []
  /-- The samples, row by row. -/
  samples : List Double := []
  deriving DecidableEq, Repr

namespace DataArray

/-! ## Faults -/

inductive Fault where
  /-- The units change the number of columns, and samples have been measured. -/
  | columnsChanged (id : String) (old new : Nat)
  /-- The samples fill no whole number of rows. -/
  | unevenSamples (id : String) (count columns : Nat)
  /-- The row is not as wide as the array. -/
  | rowWidth (id : String) (columns width : Nat)
  /-- The row has not been allocated. -/
  | rowOutside (id : String) (row rows : Nat)
  /-- The rows times the columns leave the machine words. -/
  | indexOverflow
  /-- The samples take more bytes than a buffer can have. -/
  | capacityOverflow
  deriving DecidableEq, Repr

def Fault.toError : Fault → StoreError
  | .columnsChanged id old new =>
    .shape s!"array '{id}': cannot change from {old} to {new} columns after samples were set"
  | .unevenSamples id count columns =>
    .shape s!"array '{id}': {count} values cannot be split into rows of {columns} columns"
  | .rowWidth id columns width =>
    .shape s!"array '{id}' has {columns} columns, got a row of {width}"
  | .rowOutside id row rows =>
    .shape s!"array '{id}': row {row} is outside the {rows} allocated rows"
  | .indexOverflow => .indexOverflow
  | .capacityOverflow => .capacityOverflow

/-! ## Shape -/

/-- The name, which is the id if none is given. -/
def name (a : DataArray) : String := a.givenName.getD a.id

/-- The label, which is the id if none is given. -/
def label (a : DataArray) : String := a.givenLabel.getD a.id

/-- The number of columns that a unit list stands for. -/
def widthOf (units : List String) : Nat := max 1 units.length

/-- The number of columns, never zero. -/
def width (a : DataArray) : Nat := widthOf a.units

/-- The number of allocated rows, measured or not. -/
def rowCount (a : DataArray) : Nat := a.samples.length / a.width

/-- The first `count` pieces of the given width. -/
def pieces {α : Type} (width : Nat) : Nat → List α → List (List α)
  | 0, _ => []
  | count + 1, l => l.take width :: pieces width count (l.drop width)

def rows (a : DataArray) : List (List Double) := pieces a.width a.rowCount a.samples

def isMeasured (row : List Double) : Bool := row.all fun x => !x.isNaN

/-- The number of leading rows without NaN. -/
def measuredRows (a : DataArray) : Nat := (a.rows.takeWhile isMeasured).length

/-- The samples of the rows from `first` up to `last`, if they have been allocated. -/
def samplesBetween? (a : DataArray) (first last : Nat) : Option (List Double) :=
  if first * a.width ≤ last * a.width ∧ last * a.width ≤ a.samples.length then
    some ((a.samples.take (last * a.width)).drop (first * a.width))
  else none

/-- The units, none for an array without units. -/
def unitList? (a : DataArray) : Option (List String) :=
  if a.units = [] then none else some a.units

theorem width_pos (a : DataArray) : 0 < a.width := by
  simp only [width, widthOf]; omega

/-! ## Building -/

/-- The most samples that a buffer can have: its bytes, eight a sample, are counted with a sign. -/
def maxSamples : Nat := (Word.half - 1) / 8

/-- The NaN samples of so many rows and columns. -/
def unmeasured (arithmetic : Arithmetic) (rows columns : Nat) : Except Fault (List Double) :=
  match arithmetic.word? (rows * columns) with
  | none => .error .indexOverflow
  | some count =>
    if count ≤ maxSamples then .ok (List.replicate count Double.nan)
    else .error .capacityOverflow

/-- Sets the units. Rows that hold nothing but NaN are laid out anew if the number of columns
changes; measured samples never are. -/
def setUnits (arithmetic : Arithmetic) (a : DataArray) (units : List String) :
    Except Fault DataArray :=
  if widthOf units = a.width then .ok { a with units }
  else if a.samples.all Double.isNaN then
    (unmeasured arithmetic a.rowCount (widthOf units)).map fun samples => { a with units, samples }
  else .error (.columnsChanged a.id a.width (widthOf units))

/-- Marks the array as an independent variable, which has no set arrays. -/
def markSetpoint (a : DataArray) : DataArray := { a with isSetpoint := true, setArrays := [] }

/-- Gives the arrays that this one was measured against. -/
def linkTo (a : DataArray) (setArrays : List Handle) : DataArray := { a with setArrays }

/-- Gives the array so many unmeasured rows. -/
def allocate (arithmetic : Arithmetic) (a : DataArray) (rows : Nat) : Except Fault DataArray :=
  (unmeasured arithmetic rows a.width).map fun samples => { a with samples }

/-- Gives the samples row by row. -/
def setSamples (a : DataArray) (samples : List Double) : Except Fault DataArray :=
  if samples.length % a.width = 0 then .ok { a with samples }
  else .error (.unevenSamples a.id samples.length a.width)

/-! ## Rows -/

/-- Where the samples of a row start and stop, with a word for every product and for the sum. -/
def rowSpan? (arithmetic : Arithmetic) (a : DataArray) (row : Nat) : Option (Nat × Nat) := do
  let start ← arithmetic.word? (row * a.width)
  let next ← arithmetic.word? (row + 1)
  let stop ← arithmetic.word? (next * a.width)
  return (start, stop)

/-- A row ends within the samples exactly if it has been allocated. -/
theorem stop_le_length_iff (a : DataArray) (row : Nat) :
    (row + 1) * a.width ≤ a.samples.length ↔ row < a.rowCount := by
  rw [rowCount, ← Nat.succ_le_iff, Nat.le_div_iff_mul_le a.width_pos]

/-- The samples of a row, if its two positions are in order and within the samples. -/
def readRow (arithmetic : Arithmetic) (a : DataArray) (row : Nat) :
    Except Fault (Option (List Double)) :=
  match a.rowSpan? arithmetic row with
  | none => .error .indexOverflow
  | some (start, stop) =>
    .ok (if start ≤ stop ∧ stop ≤ a.samples.length then some ((a.samples.take stop).drop start)
      else none)

/-- Overwrites the samples between the two positions of a row. -/
def writeRow (arithmetic : Arithmetic) (a : DataArray) (row : Nat) (values : List Double) :
    Except Fault DataArray :=
  if values.length = a.width then
    match a.rowSpan? arithmetic row with
    | none => .error .indexOverflow
    | some (start, stop) =>
      if start ≤ stop ∧ stop ≤ a.samples.length then
        .ok { a with samples := a.samples.take start ++ values ++ a.samples.drop stop }
      else .error (.rowOutside a.id row a.rowCount)
  else .error (.rowWidth a.id a.width values.length)

def appendRow (a : DataArray) (values : List Double) : Except Fault DataArray :=
  if values.length = a.width then .ok { a with samples := a.samples ++ values }
  else .error (.rowWidth a.id a.width values.length)

theorem writeRow_eq_ok {arithmetic : Arithmetic} {a b : DataArray} {row : Nat}
    {values : List Double} (h : a.writeRow arithmetic row values = .ok b) :
    ∃ samples, b = { a with samples } := by
  unfold writeRow at h
  split at h
  · split at h
    · cases h
    · split at h
      · exact ⟨_, (Except.ok.inj h).symm⟩
      · cases h
  · cases h

theorem appendRow_eq_ok {a b : DataArray} {values : List Double}
    (h : a.appendRow values = .ok b) : ∃ samples, b = { a with samples } := by
  unfold appendRow at h
  split at h
  · exact ⟨_, (Except.ok.inj h).symm⟩
  · cases h

end DataArray

end ArrayStore
