import ArrayStore.Proofs.DataArray.RowSpans

/-!
# Row indices near the end of the machine words

A row behind the last one is refused as long as its end fits a word. What becomes of the others
depends on the build.

* `RefusesRow` : nothing is read, and what is written is refused as a row outside the array;
* `BreaksOff`, `TakenFor` : what else can happen;
* `refusesRow_iff` : which rows behind the last one are refused, and what happens to the others;
* `exists_not_refusesRow` : a row behind the last one that neither build refuses.
-/

namespace ArrayStore.DataArray

/-! ## Rows behind the last one -/

/-- Nothing is read, and a row of the right width is refused as lying outside the array. -/
def RefusesRow (a : DataArray) (arithmetic : Arithmetic) (row : Nat) : Prop :=
  a.readRow arithmetic row = .ok none ∧
    ∀ values : List Double, values.length = a.width →
      a.writeRow arithmetic row values = .error (.rowOutside a.id row a.rowCount)

/-- The operation breaks off, whether the row is read or written. -/
def BreaksOff (a : DataArray) (arithmetic : Arithmetic) (row : Nat) : Prop :=
  a.readRow arithmetic row = .error .indexOverflow ∧
    ∀ values : List Double, values.length = a.width →
      a.writeRow arithmetic row values = .error .indexOverflow

/-- The row is taken for the samples behind `start`: these are read, and overwritten. -/
def TakenFor (a : DataArray) (arithmetic : Arithmetic) (row start : Nat) : Prop :=
  a.readRow arithmetic row = .ok (some ((a.samples.drop start).take a.width)) ∧
    ∀ values : List Double, values.length = a.width →
      a.writeRow arithmetic row values =
        .ok { a with samples := a.samples.take start ++ values ++
                a.samples.drop (start + a.width) }

theorem RefusesRow.not_breaksOff {a : DataArray} {arithmetic : Arithmetic} {row : Nat}
    (h : a.RefusesRow arithmetic row) : ¬a.BreaksOff arithmetic row :=
  fun hb => nomatch h.1.symm.trans hb.1

theorem RefusesRow.not_takenFor {a : DataArray} {arithmetic : Arithmetic} {row start : Nat}
    (h : a.RefusesRow arithmetic row) : ¬a.TakenFor arithmetic row start :=
  fun ht => nomatch h.1.symm.trans ht.1

theorem length_lt_stop {a : DataArray} {row : Nat} (hbehind : a.rowCount ≤ row) :
    a.samples.length < (row + 1) * a.width :=
  Nat.lt_of_not_le (mt (a.stop_le_length_iff row).1 (Nat.not_lt.2 hbehind))

theorem breaksOff_checked {a : DataArray} {row : Nat} (h : ¬(row + 1) * a.width < Word.limit) :
    a.BreaksOff .checked row := by
  refine ⟨?_, fun values hvalues => ?_⟩
  · rw [readRow, rowSpan?_checked_of_not_lt h]
  · rw [writeRow, if_pos hvalues, rowSpan?_checked_of_not_lt h]

/-- Nothing is reduced, and the row ends behind the samples. -/
theorem refusesRow_of_lt {a : DataArray} {row : Nat} (hbehind : a.rowCount ≤ row)
    (hfit : (row + 1) * a.width < Word.limit) (arithmetic : Arithmetic) :
    a.RefusesRow arithmetic row := by
  have hstop := Nat.not_le_of_lt (length_lt_stop hbehind)
  refine ⟨?_, fun values hvalues => ?_⟩
  · rw [readRow_of_lt arithmetic hfit, if_neg hstop]
  · rw [writeRow_of_lt arithmetic hfit hvalues, if_neg hstop]

/-- With checks, no write behind the last row changes a sample. -/
theorem stepped_write_behind {a : DataArray} {row : Nat} (hbehind : a.rowCount ≤ row)
    (values : List Double) : a.stepped .checked (.write (.row row values)) = a := by
  have hrefused : ∃ fault, a.writeRow .checked row values = .error fault := by
    by_cases hvalues : values.length = a.width
    · by_cases hfit : (row + 1) * a.width < Word.limit
      · exact ⟨_, (refusesRow_of_lt hbehind hfit .checked).2 values hvalues⟩
      · exact ⟨_, (breaksOff_checked hfit).2 values hvalues⟩
    · exact ⟨_, if_neg hvalues⟩
  obtain ⟨fault, hfault⟩ := hrefused
  rw [stepped, step, write, hfault]

theorem refusesRow_wrapping {a : DataArray} (h : a.InMemory) {row : Nat}
    (hbehind : a.samples.length < a.wrappedStart row + a.width) : a.RefusesRow .wrapping row := by
  have hfound := Nat.not_le_of_lt hbehind
  refine ⟨?_, fun values hvalues => ?_⟩
  · rw [readRow_wrapping h, if_neg hfound]
  · rw [writeRow_wrapping h row hvalues, if_neg hfound]

theorem takenFor_wrapping {a : DataArray} (h : a.InMemory) {row : Nat}
    (hfound : a.wrappedStart row + a.width ≤ a.samples.length) :
    a.TakenFor .wrapping row (a.wrappedStart row) := by
  refine ⟨?_, fun values hvalues => ?_⟩
  · rw [readRow_wrapping h, if_pos hfound]
  · rw [writeRow_wrapping h row hvalues, if_pos hfound]

/-- A row behind the last one is refused with checks exactly if its end fits a word, and else the
operation breaks off; the samples stay as they are either way. It is refused without checks exactly
if its samples, from the reduced product on, would not lie within the array; else it is taken for
the samples that lie there. So both builds refuse every such row whose end fits a word. -/
theorem refusesRow_iff {a : DataArray} (h : a.InMemory) {row : Nat} (hbehind : a.rowCount ≤ row) :
    (a.RefusesRow .checked row ↔ (row + 1) * a.width < Word.limit) ∧
      (a.BreaksOff .checked row ↔ Word.limit ≤ (row + 1) * a.width) ∧
      (∀ values, a.stepped .checked (.write (.row row values)) = a) ∧
      (a.RefusesRow .wrapping row ↔ a.samples.length < a.wrappedStart row + a.width) ∧
      (a.TakenFor .wrapping row (a.wrappedStart row) ↔
        a.wrappedStart row + a.width ≤ a.samples.length) ∧
      ((row + 1) * a.width < Word.limit → ∀ arithmetic, a.RefusesRow arithmetic row) := by
  have hchecked : (row + 1) * a.width < Word.limit → a.RefusesRow .checked row :=
    fun hfit => refusesRow_of_lt hbehind hfit .checked
  have hwrapping : a.samples.length < a.wrappedStart row + a.width → a.RefusesRow .wrapping row :=
    refusesRow_wrapping h
  refine ⟨⟨fun hr => ?_, hchecked⟩, ⟨fun hb => ?_, fun hle => ?_⟩, stepped_write_behind hbehind,
    ⟨fun hr => ?_, hwrapping⟩, ⟨fun ht => ?_, takenFor_wrapping h⟩, refusesRow_of_lt hbehind⟩
  · refine Nat.lt_of_not_le fun hle => ?_
    exact hr.not_breaksOff (breaksOff_checked (Nat.not_lt.2 hle))
  · exact Nat.le_of_not_lt fun hfit => (hchecked hfit).not_breaksOff hb
  · exact breaksOff_checked (Nat.not_lt.2 hle)
  · exact Nat.lt_of_not_le fun hfound => hr.not_takenFor (takenFor_wrapping h hfound)
  · exact Nat.le_of_not_lt fun hlt => (hwrapping hlt).not_takenFor ht

/-- The steps to one row of four columns. -/
def fourColumnSteps : List Step :=
  [.units ["V", "A", "K", "T"], .samples [⟨0⟩, ⟨1⟩, ⟨2⟩, ⟨3⟩]]

/-- One row of four columns. -/
def fourColumns : DataArray := run .checked { id := "iv" } fourColumnSteps

/-- A row whose index times four leaves the words. -/
def farRow : Nat := 0x4000000000000000

theorem refusesRow_iff_fourColumns :
    fourColumns.InMemory ∧ fourColumns.rowCount ≤ 1 ∧ fourColumns.rowCount ≤ farRow ∧
      (∀ arithmetic, fourColumns.RefusesRow arithmetic 1) ∧
      fourColumns.BreaksOff .checked farRow ∧ fourColumns.TakenFor .wrapping farRow 0 := by
  have hmemory : fourColumns.InMemory := by decide
  have hone : fourColumns.rowCount ≤ 1 := by decide
  have hfar : fourColumns.rowCount ≤ farRow := by decide
  obtain ⟨-, -, -, -, -, hboth⟩ := refusesRow_iff hmemory hone
  obtain ⟨-, hbreaks, -, -, htaken, -⟩ := refusesRow_iff hmemory hfar
  exact ⟨hmemory, hone, hfar, hboth (by decide), hbreaks.2 (by decide), htaken.2 (by decide)⟩

/-- Without checks the first row is read and overwritten in the place of a row far behind it; with
checks the operation breaks off. Neither is a refusal. -/
theorem exists_not_refusesRow :
    ∃ a row, (∀ arithmetic, ∃ steps, a = run arithmetic { id := "iv" } steps) ∧
      a.rowCount ≤ row ∧ row < Word.limit ∧
      ¬a.RefusesRow .checked row ∧ ¬a.RefusesRow .wrapping row ∧
      a.readRow .checked row = .error .indexOverflow ∧
      a.readRow .wrapping row = .ok (some [⟨0⟩, ⟨1⟩, ⟨2⟩, ⟨3⟩]) ∧
      a.writeRow .wrapping row [⟨4⟩, ⟨5⟩, ⟨6⟩, ⟨7⟩] =
        .ok { a with samples := [⟨4⟩, ⟨5⟩, ⟨6⟩, ⟨7⟩] } := by
  have hbreaks : fourColumns.BreaksOff .checked farRow := breaksOff_checked (by decide)
  have htaken : fourColumns.TakenFor .wrapping farRow (fourColumns.wrappedStart farRow) :=
    takenFor_wrapping (by decide) (by decide)
  refine ⟨fourColumns, farRow, fun arithmetic => ⟨fourColumnSteps, by cases arithmetic <;> rfl⟩,
    by decide, by decide, fun h => h.not_breaksOff hbreaks, fun h => h.not_takenFor htaken,
    hbreaks.1, ?_, ?_⟩
  · rw [htaken.1]
    exact congrArg Except.ok (by decide)
  · rw [htaken.2 _ (by decide)]
    exact congrArg Except.ok (by decide)

end ArrayStore.DataArray
