import ArrayStore.Proofs.DataArray.Pieces
import ArrayStore.Proofs.DataArray.RowSpans
import Mathlib.Order.Bounds.Basic

/-!
# Measured rows and the first NaN

The leading measured rows are counted row by row. The flat samples give the same number: the
position of the first NaN, divided by the width.

* `le_measuredRows_iff` : the leading measured rows, row by row;
* `measuredRows_eq_div`, `le_measuredRows_iff_samples` : the number by that position, and so sample
  by sample;
* `isGreatest_measuredRows` : the number as the longest beginning of the rows without NaN;
* `exists_row_at_measuredRows` : the row that ends the count, if there is one, holds NaN;
* `measuredRows_ends_at_nan` : the three together.
-/

namespace ArrayStore.DataArray

/-! ## Leading measured rows -/

theorem le_length_takeWhile_iff {α : Type} {p : α → Bool} {l : List α} {n : Nat} :
    n ≤ (l.takeWhile p).length ↔ ∀ r < n, ∃ x, l[r]? = some x ∧ p x = true := by
  induction l generalizing n with
  | nil =>
    cases n with
    | zero => simp
    | succ n =>
      simp only [List.takeWhile_nil, List.length_nil, List.getElem?_nil]
      exact ⟨fun h => by omega, fun h => by obtain ⟨x, hx, -⟩ := h 0 (Nat.succ_pos n); cases hx⟩
  | cons y l ih =>
    cases n with
    | zero => simp
    | succ n =>
      rw [List.takeWhile_cons]
      cases hy : p y with
      | false =>
        refine ⟨fun h => by simp at h, fun h => ?_⟩
        obtain ⟨x, hx, hp⟩ := h 0 (Nat.succ_pos n)
        cases hx
        rw [hy] at hp
        cases hp
      | true =>
        rw [if_pos rfl, List.length_cons, Nat.add_le_add_iff_right, ih]
        refine ⟨fun h r hr => ?_, fun h r hr => h (r + 1) (Nat.succ_lt_succ hr)⟩
        cases r with
        | zero => exact ⟨y, rfl, hy⟩
        | succ r => exact h r (Nat.lt_of_succ_lt_succ hr)

theorem le_measuredRows_iff {a : DataArray} {n : Nat} :
    n ≤ a.measuredRows ↔ ∀ r < n, ∃ row, a.rows[r]? = some row ∧ isMeasured row = true :=
  le_length_takeWhile_iff

theorem isMeasured_iff {row : List Double} :
    isMeasured row = true ↔ ∀ x ∈ row, x.isNaN = false := by
  simp [isMeasured]

theorem measuredRows_le_length_rows (a : DataArray) : a.measuredRows ≤ a.rows.length :=
  (List.takeWhile_sublist _).length_le

/-! ## The first NaN -/

/-- The position of the first NaN in the samples, behind their end if there is none. -/
def firstNaN (a : DataArray) : Nat := a.samples.findIdx Double.isNaN

theorem measuredRows_eq_div (a : DataArray) : a.measuredRows = a.firstNaN / a.width := by
  have hcount : a.measuredRows = min a.rowCount (a.firstNaN / a.width) :=
    length_takeWhile_pieces a.width_pos (Nat.div_mul_le_self _ _)
  have hle : a.firstNaN / a.width ≤ a.rowCount := Nat.div_le_div_right List.findIdx_le_length
  rw [hcount, Nat.min_eq_right hle]

theorem length_rows (a : DataArray) : a.rows.length = a.rowCount := length_pieces _ _

theorem firstNaN_eq_length_takeWhile (a : DataArray) :
    a.firstNaN = (a.samples.takeWhile fun x => !x.isNaN).length := by
  rw [List.takeWhile_eq_take_findIdx_not, List.length_take]
  simp only [Bool.not_not]
  exact (Nat.min_eq_left List.findIdx_le_length).symm

/-- A beginning of the rows is measured exactly if all its samples are there and no NaN. -/
theorem le_measuredRows_iff_samples {a : DataArray} {n : Nat} :
    n ≤ a.measuredRows ↔
      ∀ i < n * a.width, ∃ x, a.samples[i]? = some x ∧ x.isNaN = false := by
  rw [measuredRows_eq_div, Nat.le_div_iff_mul_le a.width_pos, firstNaN_eq_length_takeWhile,
    le_length_takeWhile_iff]
  simp only [Bool.not_eq_true']

theorem measuredRows_le_rowCount (a : DataArray) : a.measuredRows ≤ a.rowCount := by
  rw [← length_rows]
  exact measuredRows_le_length_rows a

theorem measuredRows_mul_width_le (a : DataArray) :
    a.measuredRows * a.width ≤ a.samples.length :=
  Nat.le_trans (Nat.mul_le_mul_right _ a.measuredRows_le_rowCount) (Nat.div_mul_le_self _ _)

/-! ## The longest measured beginning -/

/-- The rows of a beginning are measured exactly if it is counted. -/
theorem le_measuredRows_iff_take {a : DataArray} {n : Nat} :
    n ≤ a.measuredRows ↔
      n ≤ a.rowCount ∧ ∀ row ∈ a.rows.take n, ∀ x ∈ row, x.isNaN = false := by
  rw [← length_rows]
  constructor
  · intro h
    refine ⟨Nat.le_trans h (measuredRows_le_length_rows a), fun row hrow => ?_⟩
    obtain ⟨r, hr⟩ := List.mem_iff_getElem?.1 hrow
    rw [List.getElem?_take] at hr
    split at hr
    · next hlt =>
      obtain ⟨other, hother, hmeasured⟩ := le_measuredRows_iff.1 h r hlt
      rw [hr] at hother
      cases hother
      exact isMeasured_iff.1 hmeasured
    · cases hr
  · rintro ⟨hle, hclean⟩
    rw [le_measuredRows_iff]
    intro r hr
    have hrow := List.getElem?_eq_getElem (Nat.lt_of_lt_of_le hr hle)
    have hmem : a.rows[r] ∈ a.rows.take n :=
      List.mem_iff_getElem?.2 ⟨r, by rw [List.getElem?_take, if_pos hr, hrow]⟩
    exact ⟨_, hrow, isMeasured_iff.2 (hclean _ hmem)⟩

theorem isGreatest_measuredRows (a : DataArray) :
    IsGreatest {n | n ≤ a.rowCount ∧ ∀ row ∈ a.rows.take n, ∀ x ∈ row, x.isNaN = false}
      a.measuredRows :=
  ⟨le_measuredRows_iff_take.1 (Nat.le_refl _), fun _ hn => le_measuredRows_iff_take.2 hn⟩

/-- An allocated row is read, as the samples of an array in memory are fewer than the words. -/
theorem readRow_of_lt_rowCount (arithmetic : Arithmetic) {a : DataArray} {row : Nat}
    (h : row < a.rowCount) (hfit : a.samples.length < Word.limit) :
    a.readRow arithmetic row = .ok a.rows[row]? := by
  have hstop := (a.stop_le_length_iff row).2 h
  rw [readRow_of_lt arithmetic (Nat.lt_of_le_of_lt hstop hfit), if_pos hstop, rows,
    getElem?_pieces h, cut]

theorem exists_row_at_measuredRows {a : DataArray} (h : a.measuredRows < a.rowCount) :
    ∃ row, a.rows[a.measuredRows]? = some row ∧ ∃ x ∈ row, x.isNaN = true := by
  rw [← length_rows] at h
  have hrow := List.getElem?_eq_getElem h
  refine ⟨_, hrow, ?_⟩
  by_contra hclean
  -- A row without NaN would have been counted too.
  have hmeasured : isMeasured a.rows[a.measuredRows] = true :=
    isMeasured_iff.2 fun x hx => Bool.eq_false_iff.2 fun hnan => hclean ⟨x, hx, hnan⟩
  refine Nat.not_succ_le_self a.measuredRows (le_measuredRows_iff.2 fun r hr => ?_)
  rcases Nat.lt_succ_iff_lt_or_eq.1 hr with hlt | rfl
  · exact le_measuredRows_iff.1 (Nat.le_refl _) r hlt
  · exact ⟨_, hrow, hmeasured⟩

/-- The number of leading measured rows is the position of the first NaN divided by the width. It
is the greatest number of rows, from the first on, that hold no NaN; the row behind them, if one
has been allocated, can be read and holds NaN. -/
theorem measuredRows_ends_at_nan (a : DataArray) :
    a.measuredRows = a.firstNaN / a.width ∧
      IsGreatest {n | n ≤ a.rowCount ∧ ∀ row ∈ a.rows.take n, ∀ x ∈ row, x.isNaN = false}
        a.measuredRows ∧
      (a.measuredRows < a.rowCount → ∃ row, a.rows[a.measuredRows]? = some row ∧
        (∃ x ∈ row, x.isNaN = true) ∧
        (a.samples.length < Word.limit →
          ∀ arithmetic : Arithmetic, a.readRow arithmetic a.measuredRows = .ok (some row))) := by
  refine ⟨a.measuredRows_eq_div, a.isGreatest_measuredRows, fun hlt => ?_⟩
  obtain ⟨row, hrow, hnan⟩ := exists_row_at_measuredRows hlt
  refine ⟨row, hrow, hnan, fun hfit arithmetic => ?_⟩
  rw [readRow_of_lt_rowCount arithmetic hlt hfit, hrow]

/-- Of four rows of two columns the first is measured, the second halfway, the third again. -/
def gapSteps : List Step :=
  [.units ["V", "A"], .allocate 4, .write (.row 0 [⟨0⟩, ⟨1⟩]),
    .write (.row 1 [⟨2⟩, Double.nan]), .write (.row 2 [⟨3⟩, ⟨4⟩])]

theorem measuredRows_ends_at_nan_gapSteps :
    let a := run .checked { id := "iv" } gapSteps
    a.measuredRows < a.rowCount ∧ a.samples.length < Word.limit ∧ a.firstNaN = 3 ∧
      a.measuredRows = 1 ∧
      ∀ arithmetic, a.readRow arithmetic 1 = .ok (some [⟨2⟩, Double.nan]) := by
  intro a
  have hlt : a.measuredRows < a.rowCount := by decide
  have hfit : a.samples.length < Word.limit := by decide
  obtain ⟨hdiv, -, hrow⟩ := measuredRows_ends_at_nan a
  obtain ⟨row, hat, -, hread⟩ := hrow hlt
  have hone : a.measuredRows = 1 := hdiv.trans (by decide)
  rw [hone] at hat hread
  have hsecond : a.rows[1]? = some [⟨2⟩, Double.nan] := by decide
  refine ⟨hlt, hfit, by decide, hone, fun arithmetic => ?_⟩
  rw [hread hfit, ← hat, hsecond]

end ArrayStore.DataArray
