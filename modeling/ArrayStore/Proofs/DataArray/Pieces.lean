import ArrayStore.DataArray.Basic

/-!
# Lists in pieces of one length

`DataArray.pieces` cuts a list from its front, and `List.flatten` joins the pieces again.

* `pieces_flatten` : joined pieces are cut as they were;
* `cut` : one piece by its position, with `cut_flatten` and `flatten_cut`;
* `flatten_set`, `getElem?_overwrite` : replacing one piece replaces its part of the joined list,
  and leaves the rest of it;
* `take_pieces` : the first pieces are those of a beginning of the list;
* `length_takeWhile_pieces` : how many pieces come before the first marked element.
-/

namespace ArrayStore.DataArray
variable {α : Type} {width : Nat}

/-! ## Cutting and joining -/

theorem length_of_mem_pieces {count : Nat} {l row : List α} (h : count * width ≤ l.length)
    (hr : row ∈ pieces width count l) : row.length = width := by
  induction count generalizing l with
  | zero => cases hr
  | succ count ih =>
    rw [Nat.succ_mul] at h
    rcases List.mem_cons.1 hr with rfl | hr
    · rw [List.length_take]
      omega
    · exact ih (by rw [List.length_drop]; omega) hr

theorem length_pieces (count : Nat) (l : List α) : (pieces width count l).length = count := by
  induction count generalizing l with
  | zero => rfl
  | succ count ih => rw [pieces, List.length_cons, ih]

theorem pieces_flatten {rows : List (List α)} (h : ∀ row ∈ rows, row.length = width) :
    pieces width rows.length rows.flatten = rows := by
  induction rows with
  | nil => rfl
  | cons row rows ih =>
    obtain ⟨hr, h⟩ := List.forall_mem_cons.1 h
    rw [List.length_cons, List.flatten_cons, pieces, List.take_left' hr, List.drop_left' hr, ih h]

theorem length_flatten_of_rows {rows : List (List α)} (h : ∀ row ∈ rows, row.length = width) :
    rows.flatten.length = rows.length * width := by
  induction rows with
  | nil => simp
  | cons row rows ih =>
    obtain ⟨hr, h⟩ := List.forall_mem_cons.1 h
    rw [List.flatten_cons, List.length_append, hr, ih h, List.length_cons, Nat.succ_mul,
      Nat.add_comm]

/-! ## One piece -/

/-- The piece at a position. -/
def cut (width row : Nat) (l : List α) : List α := (l.drop (row * width)).take width

theorem length_cut {row : Nat} {l : List α} (h : (row + 1) * width ≤ l.length) :
    (cut width row l).length = width := by
  rw [Nat.succ_mul] at h
  rw [cut, List.length_take, List.length_drop]
  omega

theorem getElem?_pieces {count r : Nat} (h : r < count) (l : List α) :
    (pieces width count l)[r]? = some (cut width r l) := by
  induction count generalizing r l with
  | zero => cases h
  | succ count ih =>
    cases r with
    | zero => rw [pieces, List.getElem?_cons_zero, cut, Nat.zero_mul, List.drop_zero]
    | succ r =>
      rw [pieces, List.getElem?_cons_succ, ih (Nat.lt_of_succ_lt_succ h), cut, cut,
        List.drop_drop, Nat.succ_mul, Nat.add_comm]

/-- The first pieces, joined, are the beginning of the list. -/
theorem flatten_cut (width count : Nat) (l : List α) :
    ((List.range count).map fun row => cut width row l).flatten = l.take (count * width) := by
  induction count with
  | zero => simp
  | succ count ih =>
    rw [List.range_succ, List.map_append, List.flatten_append, ih, Nat.succ_mul, List.take_add,
      List.map_singleton, List.flatten_singleton, cut]

theorem cut_flatten {rows : List (List α)} (h : ∀ row ∈ rows, row.length = width) {r : Nat}
    (hr : r < rows.length) : cut width r rows.flatten = rows[r] := by
  induction rows generalizing r with
  | nil => simp at hr
  | cons row rows ih =>
    obtain ⟨hrow, h⟩ := List.forall_mem_cons.1 h
    cases r with
    | zero =>
      rw [cut, Nat.zero_mul, List.drop_zero, List.flatten_cons, List.take_left' hrow]
      rfl
    | succ r =>
      rw [cut, Nat.succ_mul, Nat.add_comm, ← List.drop_drop, List.flatten_cons,
        List.drop_left' hrow]
      exact ih h (Nat.lt_of_succ_lt_succ hr)

/-- Only the part between the start and the stop of the piece is replaced. -/
theorem flatten_set {rows : List (List α)} (h : ∀ row ∈ rows, row.length = width) {r : Nat}
    (hr : r < rows.length) (values : List α) :
    (rows.set r values).flatten =
      rows.flatten.take (r * width) ++ values ++ rows.flatten.drop ((r + 1) * width) := by
  induction rows generalizing r with
  | nil => simp at hr
  | cons row rows ih =>
    obtain ⟨hrow, h⟩ := List.forall_mem_cons.1 h
    cases r with
    | zero =>
      rw [List.set_cons_zero, List.flatten_cons, List.flatten_cons, Nat.zero_mul, List.take_zero,
        List.nil_append, Nat.zero_add, Nat.one_mul, List.drop_left' hrow]
    | succ r =>
      have hstart : (r + 1) * width = row.length + r * width := by
        rw [hrow, Nat.succ_mul, Nat.add_comm]
      have hstop : (r + 1 + 1) * width = row.length + (r + 1) * width := by
        rw [hrow, Nat.succ_mul (r + 1), Nat.add_comm]
      rw [List.set_cons_succ, List.flatten_cons, List.flatten_cons,
        ih h (Nat.lt_of_succ_lt_succ hr), hstop, List.drop_length_add_append, hstart,
        List.take_length_add_append, List.append_assoc, List.append_assoc, List.append_assoc]

/-- Only the elements of the part change. -/
theorem getElem?_overwrite {l values : List α} {start : Nat}
    (h : start + values.length ≤ l.length) (i : Nat) :
    (l.take start ++ values ++ l.drop (start + values.length))[i]? =
      if start ≤ i ∧ i < start + values.length then values[i - start]? else l[i]? := by
  have hstart : (l.take start).length = start := by
    rw [List.length_take]
    omega
  have hstop : (l.take start ++ values).length = start + values.length := by
    rw [List.length_append, hstart]
  rcases Nat.lt_or_ge i start with hlt | hge
  · have hfront : i < (l.take start ++ values).length := by omega
    rw [if_neg fun hc => Nat.not_le_of_lt hlt hc.1, List.getElem?_append_left hfront,
      List.getElem?_append_left (hstart.symm ▸ hlt), List.getElem?_take, if_pos hlt]
  · rcases Nat.lt_or_ge i (start + values.length) with hlt | hge'
    · rw [if_pos ⟨hge, hlt⟩, List.getElem?_append_left (hstop.symm ▸ hlt),
        List.getElem?_append_right (hstart.symm ▸ hge), hstart]
    · rw [if_neg fun hc => Nat.not_le_of_lt hc.2 hge',
        List.getElem?_append_right (hstop.symm ▸ hge'), hstop, List.getElem?_drop,
        Nat.add_sub_cancel' hge']

/-! ## The first pieces -/

theorem cut_take {r n : Nat} (h : r < n) (l : List α) :
    cut width r (l.take (n * width)) = cut width r l := by
  have hle : (r + 1) * width ≤ n * width := Nat.mul_le_mul_right _ h
  rw [Nat.succ_mul] at hle
  rw [cut, cut, List.drop_take, List.take_take, Nat.min_eq_left (by omega)]

theorem take_pieces {n count : Nat} (h : n ≤ count) (l : List α) :
    (pieces width count l).take n = pieces width n (l.take (n * width)) := by
  refine List.ext_getElem? fun r => ?_
  rw [List.getElem?_take]
  split
  · next hr => rw [getElem?_pieces (Nat.lt_of_lt_of_le hr h), getElem?_pieces hr, cut_take hr]
  · next hr =>
    rw [List.getElem?_eq_none]
    rw [length_pieces]
    exact Nat.le_of_not_lt hr

/-! ## Pieces before a mark -/

/-- As many pieces come before the first marked element as fit in front of it. -/
theorem length_takeWhile_pieces {p : α → Bool} (hwidth : 0 < width) {count : Nat} {l : List α}
    (h : count * width ≤ l.length) :
    ((pieces width count l).takeWhile fun row => row.all fun x => !p x).length =
      min count (l.findIdx p / width) := by
  induction count generalizing l with
  | zero => rw [Nat.zero_min]; rfl
  | succ count ih =>
    rw [Nat.succ_mul] at h
    have htake : (l.take width).length = width := by
      rw [List.length_take]
      omega
    have hdrop : count * width ≤ (l.drop width).length := by
      rw [List.length_drop]
      omega
    have hany : (l.take width).findIdx p < width ↔ (l.take width).any p = true := by
      rw [List.any_eq_true, ← List.findIdx_lt_length, htake]
    have hsplit : l.findIdx p = if (l.take width).findIdx p < width then
        (l.take width).findIdx p else (l.drop width).findIdx p + width := by
      conv => lhs; rw [← List.take_append_drop width l, List.findIdx_append, htake]
    rw [pieces, List.takeWhile_cons, ← List.not_any_eq_all_not]
    cases hmark : (l.take width).any p with
    | true =>
      -- The first piece is marked, and the position of its mark is below the width.
      have hfirst := hany.2 hmark
      rw [if_pos hfirst] at hsplit
      rw [hsplit, Nat.div_eq_of_lt hfirst, Nat.min_zero]
      rfl
    | false =>
      rw [if_neg fun hlt => Bool.false_ne_true (hmark.symm.trans (hany.1 hlt))] at hsplit
      rw [hsplit, Nat.add_div_right _ hwidth, Nat.succ_min_succ, ← ih hdrop]
      rfl

end ArrayStore.DataArray
