import ArrayStore.DataArray.Run

/-!
# Where the samples of a row are looked for

The samples of a row start at the product of its index and the columns. The builds find the same
samples as long as the end of the row fits a word.

* `rowSpan?_of_lt`, `readRow_of_lt`, `writeRow_of_lt` : in either build, if the end fits;
* `rowSpan?_checked_of_not_lt` : with checks the operation breaks off if it does not;
* `InMemory`, `wrappedStart`, `readRow_wrapping`, `writeRow_wrapping` : without checks a row starts
  at the product reduced to a word, wherever that lies;
* `exists_start_of_writeRow` : all that an accepted write does, in either build;
* `unmeasured_of_le`, `exists_unmeasured_checked_eq_error` : which buffers can be allocated.
-/

namespace ArrayStore.DataArray
variable {a : DataArray}

/-! ## Rows whose end fits -/

theorem start_le_stop (a : DataArray) (row : Nat) : row * a.width ≤ (row + 1) * a.width :=
  Nat.mul_le_mul_right _ (Nat.le_succ row)

theorem succ_le_stop (a : DataArray) (row : Nat) : row + 1 ≤ (row + 1) * a.width :=
  Nat.le_mul_of_pos_right _ a.width_pos

/-- If the end of a row fits a word, so do its start and the next index. -/
theorem rowSpan?_of_lt (arithmetic : Arithmetic) {row : Nat}
    (h : (row + 1) * a.width < Word.limit) :
    a.rowSpan? arithmetic row = some (row * a.width, (row + 1) * a.width) := by
  have hstart := arithmetic.word?_of_lt (Nat.lt_of_le_of_lt (a.start_le_stop row) h)
  have hnext := arithmetic.word?_of_lt (Nat.lt_of_le_of_lt (a.succ_le_stop row) h)
  have hstop := arithmetic.word?_of_lt h
  simp only [rowSpan?, hstart, hnext, Option.bind_eq_bind, Option.bind_some, hstop]
  rfl

theorem readRow_of_lt (arithmetic : Arithmetic) {row : Nat}
    (h : (row + 1) * a.width < Word.limit) :
    a.readRow arithmetic row = .ok (if (row + 1) * a.width ≤ a.samples.length then
      some ((a.samples.drop (row * a.width)).take a.width) else none) := by
  have hwidth : (row + 1) * a.width - row * a.width = a.width := by
    rw [Nat.succ_mul, Nat.add_sub_cancel_left]
  unfold readRow
  rw [rowSpan?_of_lt arithmetic h]
  simp only [a.start_le_stop row, true_and, List.drop_take, hwidth]

theorem writeRow_of_lt (arithmetic : Arithmetic) {row : Nat}
    (h : (row + 1) * a.width < Word.limit) {values : List Double}
    (hvalues : values.length = a.width) :
    a.writeRow arithmetic row values =
      if (row + 1) * a.width ≤ a.samples.length then
        .ok { a with samples := a.samples.take (row * a.width) ++ values ++
                a.samples.drop ((row + 1) * a.width) }
      else .error (.rowOutside a.id row a.rowCount) := by
  unfold writeRow
  rw [if_pos hvalues, rowSpan?_of_lt arithmetic h]
  simp only [a.start_le_stop row, true_and]

theorem rowSpan?_checked_of_not_lt {row : Nat} (h : ¬(row + 1) * a.width < Word.limit) :
    a.rowSpan? .checked row = none := by
  refine Option.eq_none_iff_forall_ne_some.2 fun span hspan => h ?_
  simp only [rowSpan?, Option.bind_eq_bind, Option.bind_eq_some_iff,
    Arithmetic.word?_checked_eq_some_iff] at hspan
  obtain ⟨_, -, _, ⟨-, rfl⟩, _, ⟨hfit, -⟩, -⟩ := hspan
  exact hfit

/-! ## Without checks -/

/-- The lengths of an array in memory are machine words. -/
structure InMemory (a : DataArray) : Prop where
  width : a.width < Word.limit
  samples : a.samples.length < Word.limit

instance (a : DataArray) : Decidable a.InMemory :=
  decidable_of_iff (a.width < Word.limit ∧ a.samples.length < Word.limit)
    ⟨fun h => ⟨h.1, h.2⟩, fun h => ⟨h.width, h.samples⟩⟩

/-- Where a row starts after its product has been reduced to a word. -/
def wrappedStart (a : DataArray) (row : Nat) : Nat := row * a.width % Word.limit

theorem wrappedStart_lt (a : DataArray) (row : Nat) : a.wrappedStart row < Word.limit :=
  Nat.mod_lt _ (by decide)

theorem rowSpan?_wrapping (a : DataArray) (row : Nat) :
    a.rowSpan? .wrapping row =
      some (a.wrappedStart row, (a.wrappedStart row + a.width) % Word.limit) := by
  have hstop : (row + 1) % Word.limit * a.width % Word.limit =
      (a.wrappedStart row + a.width) % Word.limit := by
    rw [Nat.mod_mul_mod, Nat.succ_mul, wrappedStart, Nat.mod_add_mod]
  show some (a.wrappedStart row, (row + 1) % Word.limit * a.width % Word.limit) = _
  rw [hstop]

/-- A stop that is reduced lies in front of the start. -/
theorem stop_of_start_le (hwidth : a.width < Word.limit) {row : Nat}
    (h : a.wrappedStart row ≤ (a.wrappedStart row + a.width) % Word.limit) :
    (a.wrappedStart row + a.width) % Word.limit = a.wrappedStart row + a.width := by
  have hstart := a.wrappedStart_lt row
  have hpos := a.width_pos
  by_cases hfit : a.wrappedStart row + a.width < Word.limit
  · exact Nat.mod_eq_of_lt hfit
  · rw [Nat.mod_eq_sub_mod (Nat.le_of_not_lt hfit), Nat.mod_eq_of_lt (by omega)] at h
    omega

/-- The samples are found exactly if they end within the array as they are. -/
theorem wrapped_found_iff (h : a.InMemory) (row : Nat) :
    (a.wrappedStart row ≤ (a.wrappedStart row + a.width) % Word.limit ∧
      (a.wrappedStart row + a.width) % Word.limit ≤ a.samples.length) ↔
      a.wrappedStart row + a.width ≤ a.samples.length := by
  constructor
  · rintro ⟨hle, hstop⟩
    rwa [stop_of_start_le h.width hle] at hstop
  · intro hstop
    rw [Nat.mod_eq_of_lt (Nat.lt_of_le_of_lt hstop h.samples)]
    exact ⟨Nat.le_add_right _ _, hstop⟩

theorem stop_of_found (h : a.InMemory) {row : Nat}
    (hfound : a.wrappedStart row + a.width ≤ a.samples.length) :
    (a.wrappedStart row + a.width) % Word.limit = a.wrappedStart row + a.width :=
  Nat.mod_eq_of_lt (Nat.lt_of_le_of_lt hfound h.samples)

theorem readRow_wrapping (h : a.InMemory) (row : Nat) :
    a.readRow .wrapping row =
      .ok (if a.wrappedStart row + a.width ≤ a.samples.length then
        some ((a.samples.drop (a.wrappedStart row)).take a.width) else none) := by
  unfold readRow
  rw [rowSpan?_wrapping]
  simp only [wrapped_found_iff h]
  by_cases hfound : a.wrappedStart row + a.width ≤ a.samples.length
  · rw [if_pos hfound, if_pos hfound, stop_of_found h hfound, List.drop_take,
      Nat.add_sub_cancel_left]
  · rw [if_neg hfound, if_neg hfound]

/-- As many samples are overwritten as the row has. -/
theorem writeRow_wrapping (h : a.InMemory) (row : Nat) {values : List Double}
    (hvalues : values.length = a.width) :
    a.writeRow .wrapping row values =
      if a.wrappedStart row + a.width ≤ a.samples.length then
        .ok { a with samples := a.samples.take (a.wrappedStart row) ++ values ++
                a.samples.drop (a.wrappedStart row + a.width) }
      else .error (.rowOutside a.id row a.rowCount) := by
  unfold writeRow
  rw [if_pos hvalues, rowSpan?_wrapping]
  simp only [wrapped_found_iff h]
  by_cases hfound : a.wrappedStart row + a.width ≤ a.samples.length
  · rw [if_pos hfound, if_pos hfound, stop_of_found h hfound]
  · rw [if_neg hfound, if_neg hfound]

/-! ## What an accepted write does -/

/-- In either build the span is one row long, from a word for its start on. -/
theorem rowSpan?_eq_some {arithmetic : Arithmetic} (hwidth : a.width < Word.limit)
    {row start stop : Nat} (h : a.rowSpan? arithmetic row = some (start, stop))
    (hle : start ≤ stop) :
    arithmetic.word? (row * a.width) = some start ∧ stop = start + a.width := by
  cases arithmetic with
  | checked =>
    by_cases hfit : (row + 1) * a.width < Word.limit
    · rw [rowSpan?_of_lt .checked hfit] at h
      cases h
      have hstart := Nat.lt_of_le_of_lt (a.start_le_stop row) hfit
      exact ⟨Arithmetic.word?_of_lt .checked hstart, Nat.succ_mul row a.width⟩
    · rw [rowSpan?_checked_of_not_lt hfit] at h
      cases h
  | wrapping =>
    rw [rowSpan?_wrapping] at h
    cases h
    exact ⟨rfl, stop_of_start_le hwidth hle⟩

/-- The row has the width of the array, and replaces as many samples from its start on. -/
theorem exists_start_of_writeRow {arithmetic : Arithmetic} {b : DataArray} {row : Nat}
    {values : List Double} (hwidth : a.width < Word.limit)
    (h : a.writeRow arithmetic row values = .ok b) :
    values.length = a.width ∧ ∃ start, arithmetic.word? (row * a.width) = some start ∧
      start + a.width ≤ a.samples.length ∧
      b = { a with samples := a.samples.take start ++ values ++
              a.samples.drop (start + a.width) } := by
  unfold writeRow at h
  split at h
  · next hvalues =>
    split at h
    · cases h
    · next start stop hspan =>
      split at h
      · next hfound =>
        obtain ⟨hstart, rfl⟩ := rowSpan?_eq_some hwidth hspan hfound.1
        exact ⟨hvalues, start, hstart, hfound.2, (Except.ok.inj h).symm⟩
      · cases h
  · cases h

/-! ## Buffers -/

theorem maxSamples_lt : maxSamples < Word.limit := by decide

theorem unmeasured_of_le (arithmetic : Arithmetic) {rows columns : Nat}
    (h : rows * columns ≤ maxSamples) :
    unmeasured arithmetic rows columns = .ok (List.replicate (rows * columns) Double.nan) := by
  unfold unmeasured
  rw [arithmetic.word?_of_lt (Nat.lt_of_le_of_lt h maxSamples_lt)]
  simp only [if_pos h]

/-- With checks no other buffer is allocated. -/
theorem exists_unmeasured_checked_eq_error {rows columns : Nat}
    (h : ¬rows * columns ≤ maxSamples) :
    ∃ fault, unmeasured .checked rows columns = .error fault := by
  unfold unmeasured
  split
  · exact ⟨_, rfl⟩
  · next count hcount =>
    obtain ⟨-, rfl⟩ := Arithmetic.word?_checked_eq_some_iff.1 hcount
    exact ⟨_, if_neg h⟩

end ArrayStore.DataArray
