import ArrayStore.Proofs.DataArray.RowSpans
import ArrayStore.Proofs.Units

/-!
# The number of columns of a stored array

The number of columns is not stored. It is that of the units, which are read back from their
attribute.

* `setUnits_of_no_samples` : units of an array without samples;
* `DataArray.rereadUnits` : the units of an array, stored and read back;
* `DataArray.LosesColumns` : the units stand for several columns and are all empty;
* `width_of_rereadUnits` : those arrays come back with one column, all others with theirs;
* `exists_width_of_rereadUnits_ne` : so a number of columns can be lost.
-/

namespace ArrayStore.DataArray
open ArrayStore.Units

/-- The units that are read back from their attribute. -/
def rereadUnits (a : DataArray) : List String :=
  (ofAttribute (toAttribute a.unitList?)).getD []

/-- Several units, and all of them empty. -/
def LosesColumns (units : List String) : Prop :=
  2 ≤ units.length ∧ ∀ unit ∈ units, unit = ""

instance (units : List String) : Decidable (LosesColumns units) := by
  unfold LosesColumns
  infer_instance

/-- Without samples, any units can be set. -/
theorem setUnits_of_no_samples (arithmetic : Arithmetic) {a : DataArray} (h : a.samples = [])
    (units : List String) : a.setUnits arithmetic units = .ok { a with units } := by
  have hrows : a.rowCount = 0 := by
    rw [rowCount, h]
    exact Nat.zero_div _
  have hbuffer := unmeasured_of_le arithmetic (Nat.zero_mul (widthOf units) ▸ Nat.zero_le _)
  unfold setUnits
  split
  · rfl
  · rw [h, List.all_nil, if_pos rfl, hrows, hbuffer, Nat.zero_mul]
    show Except.ok { a with units, samples := [] } = _
    rw [← h]

theorem setUnits_empty (arithmetic : Arithmetic) (id : String) (units : List String) :
    setUnits arithmetic { id } units = .ok { id, units } :=
  setUnits_of_no_samples arithmetic rfl units

theorem rereadUnits_eq (a : DataArray) :
    a.rereadUnits = if IsVoid a.unitList? then [] else a.units := by
  unfold rereadUnits
  rw [ofAttribute_toAttribute_eq]
  split
  · rfl
  · unfold unitList?
    split
    · next h => rw [h]; rfl
    · rfl

theorem widthOf_of_length_lt_two {units : List String} (h : units.length < 2) :
    widthOf units = 1 := by
  unfold widthOf
  omega

theorem isVoid_unitList?_iff {a : DataArray} (h : 2 ≤ a.units.length) :
    IsVoid a.unitList? ↔ LosesColumns a.units := by
  have hn : a.units ≠ [] := by
    intro hn
    rw [hn] at h
    cases h
  unfold unitList? LosesColumns
  rw [if_neg hn, isVoid_iff_of_length_ne_one (by omega)]
  exact ⟨fun he => ⟨h, he⟩, fun he => he.2⟩

/-- Several empty units are read back as one column, all others as they were. -/
theorem widthOf_rereadUnits (a : DataArray) :
    widthOf a.rereadUnits = if LosesColumns a.units then 1 else a.width := by
  rw [rereadUnits_eq]
  by_cases h : 2 ≤ a.units.length
  · simp only [isVoid_unitList?_iff h]
    split <;> rfl
  · have hl : ¬LosesColumns a.units := fun hl => h hl.1
    have hw : a.width = 1 := widthOf_of_length_lt_two (Nat.lt_of_not_le h)
    rw [if_neg hl, hw]
    split
    · rfl
    · exact hw

/-- The number of columns is read back exactly if the units are not several empty ones. -/
theorem width_of_rereadUnits (arithmetic : Arithmetic) (a : DataArray) (id : String) :
    ∃ b, setUnits arithmetic { id } a.rereadUnits = .ok b ∧
      b.width = (if LosesColumns a.units then 1 else a.width) ∧
      (b.width = a.width ↔ ¬LosesColumns a.units) := by
  refine ⟨_, setUnits_empty arithmetic id a.rereadUnits, widthOf_rereadUnits a, ?_⟩
  show widthOf a.rereadUnits = a.width ↔ _
  rw [widthOf_rereadUnits]
  split
  · next h =>
    have hw : 2 ≤ a.width := Nat.le_trans h.1 (Nat.le_max_right 1 _)
    exact ⟨fun he => absurd hw (by omega), fun hn => (hn h).elim⟩
  · next h => exact ⟨fun _ => h, fun _ => rfl⟩

/-- Two empty units stand for two columns, and one is read back. -/
theorem exists_width_of_rereadUnits_ne :
    ∃ a b, (∀ arithmetic, setUnits arithmetic { id := "iv" } ["", ""] = .ok a ∧
      setUnits arithmetic { id := "iv" } a.rereadUnits = .ok b) ∧ a.width = 2 ∧ b.width = 1 := by
  refine ⟨_, _, fun arithmetic => ⟨setUnits_empty arithmetic "iv" ["", ""],
    setUnits_empty arithmetic "iv" _⟩, by decide, ?_⟩
  show widthOf (rereadUnits { id := "iv", units := ["", ""] }) = 1
  rw [widthOf_rereadUnits, if_pos (by decide)]

end ArrayStore.DataArray
