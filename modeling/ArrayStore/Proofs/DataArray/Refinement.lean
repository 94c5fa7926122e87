import ArrayStore.Proofs.DataArray.RowSpans
import ArrayStore.Proofs.DataArray.Table

/-!
# Arrays hold tables

The flat samples of an array are a table of rows, and every step on the array is the step on that
table.

* `DataArray.Holds` : the array holds the rows of a table and nothing else; `Holds.table_eq` : the
  table is determined by the array;
* `DataArray.Agrees` : a step is refused on both sides, or the array after it holds the table after
  it; `Holds.step` : so every step agrees;
* `DataArray.Fits`, `DataArray.FitsAll` : the row arithmetic of a step, and of a run, stays within
  machine words;
* `exists_step_checked_eq_error` : with checks, what does not fit is refused;
* `run_refines_table` : the same for all that a run from a new array reaches.
-/

namespace ArrayStore.DataArray

/-- The array holds the rows of the table and nothing else. -/
structure Holds (a : DataArray) (t : Table) : Prop where
  width : a.width = t.width
  samples : a.samples = t.rows.flatten

def table (a : DataArray) : Table :=
  ⟨a.width, a.rows, a.width_pos, fun _ hr => length_of_mem_pieces (Nat.div_mul_le_self _ _) hr⟩

section Holds
variable {a : DataArray} {t : Table}

theorem Holds.length_samples (h : Holds a t) : a.samples.length = t.rows.length * t.width := by
  rw [h.samples, length_flatten_of_rows t.length_row]

theorem Holds.rowCount (h : Holds a t) : a.rowCount = t.rows.length := by
  rw [DataArray.rowCount, h.length_samples, h.width, Nat.mul_div_cancel _ t.width_pos]

/-- No other table is held. -/
theorem Holds.table_eq (h : Holds a t) : a.table = t := by
  refine Table.ext h.width ?_
  show pieces a.width a.rowCount a.samples = t.rows
  rw [h.width, h.rowCount, h.samples, pieces_flatten t.length_row]

theorem Holds.all_isNaN_iff (h : Holds a t) :
    a.samples.all Double.isNaN = true ↔ t.IsUnmeasured := by
  rw [h.samples, List.all_eq_true, Table.IsUnmeasured, List.forall_mem_flatten]

theorem Holds.stop_le_iff (h : Holds a t) (row : Nat) :
    (row + 1) * a.width ≤ a.samples.length ↔ row < t.rows.length := by
  rw [a.stop_le_length_iff, h.rowCount]

end Holds

/-! ## Single operations -/

/-- Both sides refuse, or the array holds the table. -/
def Agrees : Except Fault DataArray → Option Table → Prop
  | .ok a, some t => Holds a t
  | .error _, none => True
  | _, _ => False

section Operations
variable {a : DataArray} {t : Table}

/-- Rows are kept under an equal width, and an unmeasured array is laid out again. -/
theorem Holds.setUnits (h : Holds a t) (arithmetic : Arithmetic) {units : List String}
    (hw : 0 < widthOf units)
    (hf : widthOf units ≠ a.width → a.samples.all Double.isNaN = true →
      a.rowCount * widthOf units ≤ maxSamples) :
    Agrees (a.setUnits arithmetic units) (t.reshape? (widthOf units) hw) := by
  unfold DataArray.setUnits Table.reshape?
  rw [h.width] at hf ⊢
  by_cases hsame : widthOf units = t.width
  · rw [if_pos hsame, if_pos hsame]
    exact ⟨hsame, h.samples⟩
  · rw [if_neg hsame, if_neg hsame]
    by_cases hn : t.IsUnmeasured
    · have hall := h.all_isNaN_iff.2 hn
      rw [if_pos hall, if_pos hn, unmeasured_of_le arithmetic (hf hsame hall), h.rowCount]
      exact ⟨rfl, List.flatten_replicate_replicate.symm⟩
    · rw [if_neg (mt h.all_isNaN_iff.1 hn), if_neg hn]
      trivial

theorem Holds.allocate (h : Holds a t) (arithmetic : Arithmetic) {count : Nat}
    (hf : count * a.width ≤ maxSamples) :
    Agrees (a.allocate arithmetic count)
      (some (Table.unmeasured t.width count t.width_pos)) := by
  unfold DataArray.allocate
  rw [unmeasured_of_le arithmetic hf]
  refine ⟨h.width, ?_⟩
  show List.replicate (count * a.width) Double.nan = _
  rw [h.width]
  exact List.flatten_replicate_replicate.symm

theorem Holds.setSamples (h : Holds a t) (samples : List Double) :
    Agrees (a.setSamples samples) (t.refill? samples) := by
  unfold DataArray.setSamples Table.refill?
  rw [h.width]
  by_cases hd : t.width ∣ samples.length
  · rw [if_pos (Nat.mod_eq_zero_of_dvd hd), if_pos hd]
    refine ⟨h.width, ?_⟩
    show samples = _
    rw [flatten_cut, Nat.div_mul_cancel hd, List.take_length]
  · rw [if_neg (mt Nat.dvd_of_mod_eq_zero hd), if_neg hd]
    trivial

theorem Holds.writeRow (h : Holds a t) (arithmetic : Arithmetic) {row : Nat}
    (hf : (row + 1) * a.width < Word.limit) (values : List Double) :
    Agrees (a.writeRow arithmetic row values) (t.replace? row values) := by
  unfold Table.replace?
  by_cases hv : values.length = a.width
  · rw [writeRow_of_lt arithmetic hf hv]
    by_cases hr : row < t.rows.length
    · rw [dif_pos ⟨hr, hv.trans h.width⟩, if_pos ((h.stop_le_iff row).2 hr)]
      refine ⟨h.width, ?_⟩
      show a.samples.take _ ++ values ++ a.samples.drop _ = _
      rw [flatten_set t.length_row hr, h.samples, h.width]
    · rw [dif_neg fun hc => hr hc.1, if_neg (mt (h.stop_le_iff row).1 hr)]
      trivial
  · rw [DataArray.writeRow, if_neg hv, dif_neg fun hc => hv (hc.2.trans h.width.symm)]
    trivial

theorem Holds.appendRow (h : Holds a t) (values : List Double) :
    Agrees (a.appendRow values) (t.append? values) := by
  unfold DataArray.appendRow Table.append?
  by_cases hv : values.length = a.width
  · rw [if_pos hv, dif_pos (hv.trans h.width)]
    refine ⟨h.width, ?_⟩
    show a.samples ++ values = _
    rw [h.samples, List.flatten_append, List.flatten_singleton]
  · rw [if_neg hv, dif_neg fun hc => hv (hc.trans h.width.symm)]
    trivial

theorem Holds.readRow (h : Holds a t) (arithmetic : Arithmetic) {row : Nat}
    (hf : (row + 1) * a.width < Word.limit) : a.readRow arithmetic row = .ok t.rows[row]? := by
  rw [readRow_of_lt arithmetic hf]
  by_cases hr : row < t.rows.length
  · rw [if_pos ((h.stop_le_iff row).2 hr), List.getElem?_eq_getElem hr, h.samples, h.width,
      ← cut_flatten t.length_row hr, cut]
  · rw [if_neg (mt (h.stop_le_iff row).1 hr), List.getElem?_eq_none (Nat.le_of_not_lt hr)]

end Operations

/-! ## Steps and runs -/

/-- The row arithmetic of a step stays within machine words: that of a row which is written, and the
bytes of a buffer which is allocated. -/
def Fits (a : DataArray) : Step → Prop
  | .units units => widthOf units ≠ a.width → a.samples.all Double.isNaN = true →
      a.rowCount * widthOf units ≤ maxSamples
  | .allocate rows => rows * a.width ≤ maxSamples
  | .write (.sample row _) | .write (.row row _) => (row + 1) * a.width < Word.limit
  | _ => True

instance (a : DataArray) (step : Step) : Decidable (a.Fits step) := by
  unfold Fits
  split <;> infer_instance

/-- So does that of every step of a run. -/
def FitsAll (arithmetic : Arithmetic) (a : DataArray) : List Step → Prop
  | [] => True
  | step :: steps => a.Fits step ∧ (a.stepped arithmetic step).FitsAll arithmetic steps

instance FitsAll.decidable (arithmetic : Arithmetic) :
    (a : DataArray) → (steps : List Step) → Decidable (a.FitsAll arithmetic steps)
  | _, [] => .isTrue trivial
  | a, step :: steps =>
    have := FitsAll.decidable arithmetic (a.stepped arithmetic step) steps
    inferInstanceAs (Decidable (a.Fits step ∧ (a.stepped arithmetic step).FitsAll arithmetic steps))

section Steps
variable {arithmetic : Arithmetic} {a : DataArray} {t : Table}

/-- Every step is refused on both sides, or the array still holds the table. -/
theorem Holds.step (h : Holds a t) {step : Step} (hf : a.Fits step) :
    Agrees (a.step arithmetic step) (t.step? step) := by
  cases step with
  | name | label | setpoint | setArrays => exact ⟨h.width, h.samples⟩
  | units units => exact h.setUnits arithmetic _ hf
  | allocate count => exact h.allocate arithmetic hf
  | samples samples => exact h.setSamples samples
  | write w =>
    cases w with
    | sample row value => exact h.writeRow arithmetic hf [value]
    | row row values => exact h.writeRow arithmetic hf values
    | append values => exact h.appendRow values

theorem Agrees.map_table {r : Except Fault DataArray} {o : Option Table} (h : Agrees r o) :
    r.toOption.map table = o := by
  cases r with
  | ok a =>
    cases o with
    | some t => exact congrArg some (Holds.table_eq h)
    | none => exact h.elim
  | error fault =>
    cases o with
    | some t => exact h.elim
    | none => rfl

theorem Holds.stepped (h : Holds a t) {step : Step} (hf : a.Fits step) :
    Holds (a.stepped arithmetic step) ((t.step? step).getD t) := by
  have hs : Agrees (a.step arithmetic step) (t.step? step) := h.step hf
  unfold DataArray.stepped
  cases ha : a.step arithmetic step with
  | ok b =>
    cases ht : t.step? step with
    | some u => rwa [ha, ht] at hs
    | none => rw [ha, ht] at hs; exact hs.elim
  | error fault =>
    cases ht : t.step? step with
    | some u => rw [ha, ht] at hs; exact hs.elim
    | none => exact h

theorem Holds.run (h : Holds a t) {steps : List Step} (hf : a.FitsAll arithmetic steps) :
    Holds (a.run arithmetic steps) (t.run steps) := by
  induction steps generalizing a t with
  | nil => exact h
  | cons step steps ih => exact ih (h.stepped hf.1) hf.2

end Steps

/-! ## Steps that do not fit -/

theorem exists_writeRow_checked_eq_error {a : DataArray} {row : Nat} {values : List Double}
    (h : ¬(row + 1) * a.width < Word.limit) :
    ∃ fault, a.writeRow .checked row values = .error fault := by
  unfold writeRow
  rw [rowSpan?_checked_of_not_lt h]
  split
  · exact ⟨_, rfl⟩
  · exact ⟨_, rfl⟩

/-- With checks, a step whose row arithmetic leaves the words is refused. -/
theorem exists_step_checked_eq_error {a : DataArray} {step : Step} (h : ¬a.Fits step) :
    ∃ fault, a.step .checked step = .error fault := by
  cases step with
  | units units =>
    simp only [Fits, Classical.not_imp] at h
    obtain ⟨hwidth, hall, hbuffer⟩ := h
    obtain ⟨fault, hfault⟩ := exists_unmeasured_checked_eq_error hbuffer
    refine ⟨fault, ?_⟩
    rw [step, setUnits, if_neg hwidth, if_pos hall, hfault]
    rfl
  | allocate rows =>
    obtain ⟨fault, hfault⟩ := exists_unmeasured_checked_eq_error h
    refine ⟨fault, ?_⟩
    rw [step, allocate, hfault]
    rfl
  | write w =>
    cases w with
    | sample row x => exact exists_writeRow_checked_eq_error h
    | row row values => exact exists_writeRow_checked_eq_error h
    | append values => exact absurd trivial h
  | name | label | setpoint | setArrays | samples => exact absurd trivial h

/-! ## Runs from a new array -/

theorem holds_empty (id : String) : Holds { id } Table.empty := ⟨rfl, rfl⟩

/-- What a run from a new array reaches is a table: the columns are at least one, the samples are
the rows one behind the other, the rows are those that the steps give on tables, and every further
step and every row that is read is that of the table. Both builds do this as long as the row
arithmetic fits; with checks, a step for which it does not is refused. -/
theorem run_refines_table (arithmetic : Arithmetic) (id : String) (steps : List Step)
    (hf : FitsAll arithmetic { id } steps) :
    let a := run arithmetic { id } steps
    1 ≤ a.width ∧ a.samples = a.table.rows.flatten ∧ a.table.rows.length = a.rowCount ∧
      (∀ row ∈ a.table.rows, row.length = a.width) ∧
      a.table = Table.empty.run steps ∧
      (∀ step, a.Fits step →
        (a.step arithmetic step).toOption.map table = a.table.step? step) ∧
      (∀ row, (row + 1) * a.width < Word.limit →
        a.readRow arithmetic row = .ok a.table.rows[row]?) ∧
      ∀ step, ¬a.Fits step → ∃ fault, a.step .checked step = .error fault := by
  intro a
  have h : Holds a (Table.empty.run steps) := (holds_empty id).run hf
  rw [h.table_eq]
  refine ⟨a.width_pos, h.samples, h.rowCount.symm, fun row hr => ?_, rfl, fun step hs => ?_,
    fun row hr => h.readRow arithmetic hr, fun step => exists_step_checked_eq_error⟩
  · rw [h.width]
    exact (Table.empty.run steps).length_row row hr
  · exact (h.step hs).map_table

/-- Two rows are relaid for two columns and one of them is measured; then a row behind the end and
units for one column are refused. -/
def relaidSteps : List Step :=
  [.allocate 2, .units ["V", "A"], .write (.row 0 [⟨0⟩, ⟨1⟩]), .write (.row 2 [⟨0⟩, ⟨1⟩]),
    .units ["W"], .write (.append [⟨1⟩, ⟨0⟩])]

theorem run_refines_table_relaidSteps :
    FitsAll .wrapping { id := "iv" } relaidSteps ∧
      (run .wrapping { id := "iv" } relaidSteps).table = Table.empty.run relaidSteps ∧
      (Table.empty.run relaidSteps).rows = [[⟨0⟩, ⟨1⟩], [Double.nan, Double.nan], [⟨1⟩, ⟨0⟩]] := by
  have h : FitsAll .wrapping { id := "iv" } relaidSteps := by decide
  exact ⟨h, (run_refines_table .wrapping "iv" relaidSteps h).2.2.2.2.1, by decide⟩

end ArrayStore.DataArray
