import ArrayStore.DataArray.Run
import ArrayStore.Proofs.DataArray.Pieces
import Mathlib.Tactic.SplitIfs

/-!
# Tables

A `Table` is a list of rows of one width. What the steps on an array do to its samples is said here
row by row, without positions in a buffer.

* `Table.unmeasured`, `Table.empty` : rows of NaN, and no row of one column;
* `Table.reshape?`, `Table.refill?`, `Table.replace?`, `Table.append?` : the changes, none where
  one is refused;
* `Table.step?`, `Table.run` : a step of an array as a change of its table, and a run of them.
-/

namespace ArrayStore

/-- Rows of one width. -/
@[ext]
structure Table where
  width : Nat
  rows : List (List Double)
  width_pos : 0 < width
  length_row : ∀ row ∈ rows, row.length = width

namespace Table
open DataArray (Step cut length_cut)

/-! ## Changes -/

/-- Rows that have not been measured. -/
def unmeasured (width count : Nat) (h : 0 < width) : Table :=
  ⟨width, List.replicate count (List.replicate width Double.nan), h, fun row hr => by
    rw [List.eq_of_mem_replicate hr, List.length_replicate]⟩

def empty : Table := unmeasured 1 0 Nat.one_pos

/-- No sample other than NaN. -/
def IsUnmeasured (t : Table) : Prop := ∀ row ∈ t.rows, ∀ x ∈ row, x.isNaN = true

instance (t : Table) : Decidable t.IsUnmeasured := by
  unfold IsUnmeasured
  infer_instance

/-- Rows of another width: as many as before and unmeasured, which they have to be already. -/
def reshape? (t : Table) (width : Nat) (h : 0 < width) : Option Table :=
  if width = t.width then some t
  else if t.IsUnmeasured then some (unmeasured width t.rows.length h)
  else none

/-- Samples cut into rows, of which they have to fill a whole number. -/
def refill? (t : Table) (samples : List Double) : Option Table :=
  if t.width ∣ samples.length then
    some ⟨t.width, (List.range (samples.length / t.width)).map fun r => cut t.width r samples,
      t.width_pos, fun row hrow => by
        obtain ⟨r, hr, rfl⟩ := List.mem_map.1 hrow
        have hle := Nat.mul_le_mul_right t.width (Nat.succ_le_of_lt (List.mem_range.1 hr))
        exact length_cut (Nat.le_trans hle (Nat.div_mul_le_self _ _))⟩
  else none

/-- Another row in the place of row `r`. -/
def replace? (t : Table) (r : Nat) (row : List Double) : Option Table :=
  if h : r < t.rows.length ∧ row.length = t.width then
    some ⟨t.width, t.rows.set r row, t.width_pos, fun other hother => by
      rcases List.mem_or_eq_of_mem_set hother with ho | rfl
      · exact t.length_row other ho
      · exact h.2⟩
  else none

def append? (t : Table) (row : List Double) : Option Table :=
  if h : row.length = t.width then
    some ⟨t.width, t.rows ++ [row], t.width_pos, fun other hother => by
      rcases List.mem_append.1 hother with ho | ho
      · exact t.length_row other ho
      · rw [List.mem_singleton.1 ho, h]⟩
  else none

/-! ## Steps -/

/-- What a step of an array does to its rows; none if the step is refused. -/
def step? (t : Table) : Step → Option Table
  | .name _ | .label _ | .setpoint | .setArrays _ => some t
  | .units units => t.reshape? (max 1 units.length) (Nat.le_max_left 1 _)
  | .allocate count => some (unmeasured t.width count t.width_pos)
  | .samples samples => t.refill? samples
  | .write (.sample r x) => t.replace? r [x]
  | .write (.row r row) => t.replace? r row
  | .write (.append row) => t.append? row

/-- The rows after a sequence of steps, of which refused ones change nothing. -/
def run (t : Table) (steps : List Step) : Table :=
  steps.foldl (fun t step => (t.step? step).getD t) t

end Table

end ArrayStore
