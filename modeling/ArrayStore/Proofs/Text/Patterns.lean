import ArrayStore.Text.Pattern
import Mathlib.Data.List.TakeDrop

/-!
# Usable patterns

* `length_readClass_lt`, `length_readItem_le` : reading takes characters away;
* `readClass_of_lt`, `run_of_le` : so the bounds on the steps are never met;
* `run_cons` : a pattern is read item by item;
* `escape`, `check_escape` : every text can be written as a pattern.
-/

namespace ArrayStore.Text.Pattern
variable {m : Mode} {s rest : List Char}

/-! ## Every part takes characters away -/

theorem length_skipComments_le (inComment : Bool) (s : List Char) :
    (skipComments inComment s).length ≤ s.length := by
  induction s generalizing inComment with
  | nil => exact Nat.le_refl 0
  | cons c s ih =>
    unfold skipComments
    split
    · exact Nat.le_succ_of_le (ih _)
    · split
      · exact Nat.le_succ_of_le (ih _)
      · split
        · exact Nat.le_succ_of_le (ih _)
        · exact Nat.le_refl _

theorem length_skip_le (m : Mode) (s : List Char) : (m.skip s).length ≤ s.length := by
  unfold Mode.skip
  split
  · exact length_skipComments_le false s
  · exact Nat.le_refl _

theorem length_lt_of_skip {c : Char} {tail : List Char} (h : m.skip s = c :: tail) :
    tail.length < s.length := by
  have hskip := length_skip_le m s
  rw [h] at hskip
  exact hskip

theorem length_span_le (p : Char → Bool) (s : List Char) : (s.span p).2.length ≤ s.length := by
  rw [List.span_eq_takeWhile_dropWhile]
  exact (List.dropWhile_suffix p).length_le

theorem length_readHexDigits_le {count : Nat} {digits : List Char}
    (h : readHexDigits m count s = some (digits, rest)) : rest.length ≤ s.length := by
  fun_induction readHexDigits m count s generalizing digits with
  | case1 => simp_all
  | case2 => cases h
  | case3 count c tail hc ih =>
    obtain ⟨⟨more, behind⟩, hread, heq⟩ := Option.map_eq_some_iff.1 h
    cases heq
    exact Nat.le_trans (ih hread) (Nat.le_succ_of_le (length_skip_le m tail))
  | case4 => cases h

theorem length_readCode_le {count : Nat} {c : Char} (h : readCode m count s = some (c, rest)) :
    rest.length ≤ s.length := by
  obtain ⟨⟨digits, behind⟩, hread, h⟩ := Option.bind_eq_some_iff.1 h
  obtain ⟨code, -, h⟩ := Option.bind_eq_some_iff.1 h
  cases h
  exact Nat.le_trans (length_readHexDigits_le hread) (length_skip_le m s)

theorem length_readEscape_lt {e : Escape} (h : readEscape m s = some (e, rest)) :
    rest.length < s.length := by
  have hcode : ∀ {count tail} {f : Char × List Char → Escape × List Char},
      (∀ c behind, (f (c, behind)).2 = behind) →
      (readCode m count tail).map f = some (e, rest) → rest.length ≤ tail.length := by
    intro count tail f hf h
    obtain ⟨⟨c, behind⟩, hread, heq⟩ := Option.map_eq_some_iff.1 h
    have hbehind := hf c behind
    rw [heq] at hbehind
    cases hbehind
    exact length_readCode_le hread
  unfold readEscape at h
  split at h
  · cases h
  · exact Nat.lt_succ_of_le (hcode (fun _ _ => rfl) h)
  · exact Nat.lt_succ_of_le (hcode (fun _ _ => rfl) h)
  · exact Nat.lt_succ_of_le (hcode (fun _ _ => rfl) h)
  · next c tail _ _ _ =>
    have hrest : rest = tail := by grind
    rw [hrest]
    exact Nat.lt_succ_self _

theorem length_readNamedClass_lt {negated : Bool} (h : readNamedClass s = some (negated, rest)) :
    rest.length < s.length := by
  unfold readNamedClass at h
  split at h
  · next tail =>
    split at h
    next negated t hsign =>
    split at h
    next name behind hname =>
    have ht : t.length ≤ tail.length := by
      split at hsign <;> cases hsign
      · exact Nat.le_succ _
      · exact Nat.le_refl _
    have hbehind := length_span_le (· != ':') t
    rw [hname] at hbehind
    split at h
    · split at h
      · cases h
        simp only [List.length_cons] at hbehind ⊢
        omega
      · cases h
    · cases h
  · cases h

theorem length_readMember_lt {member : Option Char} (h : readMember m s = some (member, rest)) :
    rest.length < s.length := by
  unfold readMember at h
  split at h
  · cases h
  · next tail =>
    split at h
    · next c isByte behind hread =>
      split at h
      · cases h
        exact Nat.lt_succ_of_lt (length_readEscape_lt hread)
      · cases h
    · next negated behind hread =>
      split at h
      · cases h
        exact Nat.lt_succ_of_lt (length_readEscape_lt hread)
      · cases h
    · cases h
  · next c tail _ =>
    split at h
    · cases h
      exact Nat.lt_succ_self _
    · cases h

theorem length_readRange_lt (h : readRange m s = some rest) : rest.length < s.length := by
  obtain ⟨⟨low, behind⟩, hlow, h⟩ := Option.bind_eq_some_iff.1 h
  have hbehind := length_readMember_lt hlow
  have hskip := length_skip_le m behind
  dsimp only at h
  split at h
  · next more hmore =>
    rw [hmore, List.length_cons] at hskip
    have hagain := length_skip_le m more
    split at h
    · cases h
      exact Nat.lt_of_le_of_lt hskip hbehind
    · cases h
      exact Nat.lt_of_le_of_lt hskip hbehind
    · obtain ⟨⟨high, last⟩, hhigh, h⟩ := Option.bind_eq_some_iff.1 h
      have hlast := length_readMember_lt hhigh
      obtain ⟨low, -, h⟩ := Option.bind_eq_some_iff.1 h
      obtain ⟨high, -, h⟩ := Option.bind_eq_some_iff.1 h
      dsimp only at h
      split at h
      · cases h
        omega
      · cases h
  · cases h
    exact Nat.lt_of_le_of_lt hskip hbehind

theorem length_readNegation_le (h : readNegation m s = some rest) : rest.length ≤ s.length := by
  have hskip := length_skip_le m s
  unfold readNegation at h
  split at h
  · next tail htail =>
    rw [htail, List.length_cons] at hskip
    split at h
    · cases h
    · cases h
      exact Nat.le_of_succ_le hskip
  · cases h
    exact hskip

theorem length_readClass_lt {fuel depth : Nat} {place : Place}
    (h : readClass m fuel depth place s = some rest) : rest.length < s.length := by
  fun_induction readClass m fuel depth place s
  case case1 | case2 | case5 => cases h
  case case3 hs _ ih | case4 hs _ _ ih | case9 hs ih =>
    exact Nat.lt_trans (ih h) (length_lt_of_skip hs)
  case case6 hname _ _ _ hs ih =>
    have hname := length_readNamedClass_lt hname
    exact Nat.lt_trans (ih h) (Nat.lt_trans hname (length_lt_of_skip hs))
  case case7 hs ih =>
    obtain ⟨behind, hbehind, h⟩ := Option.bind_eq_some_iff.1 h
    have hnegation := length_readNegation_le hbehind
    exact Nat.lt_trans (Nat.lt_of_lt_of_le (ih behind h) hnegation) (length_lt_of_skip hs)
  case case8 hs =>
    cases h
    exact length_lt_of_skip hs
  case case10 hs ih | case11 hs ih | case12 hs ih =>
    exact Nat.lt_trans (ih h) (Nat.lt_of_succ_lt (length_lt_of_skip hs))
  case case13 hs ih =>
    obtain ⟨behind, hbehind, h⟩ := Option.bind_eq_some_iff.1 h
    have hrange : behind.length ≤ _ := Nat.le_of_lt_succ (length_readRange_lt hbehind)
    exact Nat.lt_trans (Nat.lt_of_lt_of_le (ih behind h) hrange) (length_lt_of_skip hs)

theorem length_readWholeClass_lt (h : readWholeClass m s = some rest) :
    rest.length < s.length := by
  obtain ⟨behind, hbehind, h⟩ := Option.bind_eq_some_iff.1 h
  have hnegation := length_readNegation_le hbehind
  split at h
  · cases h
  · exact Nat.lt_of_lt_of_le (length_readClass_lt h) hnegation

theorem length_readName_lt {opening : Opening} (h : readName s = some (opening, rest)) :
    rest.length < s.length := by
  have hspan := length_span_le (· != '>') s
  unfold readName at h
  dsimp only at h
  split at h
  · next hname =>
    rw [hname] at hspan
    split at h
    · cases h
      exact hspan
    · cases h
  · cases h

theorem length_readGroup_le {opening : Opening} (h : readGroup s = some (opening, rest)) :
    rest.length ≤ s.length := by
  unfold readGroup at h
  split at h
  · have hname := length_readName_lt h
    simp only [List.length_cons]
    omega
  · have hname := length_readName_lt h
    simp only [List.length_cons]
    omega
  · next tail _ _ =>
    have hspan := length_span_le (fun c => c != ':' && c != ')') tail
    dsimp only at h
    split at h
    · split at h
      · next hflags =>
        cases h
        rw [hflags] at hspan
        simp only [List.length_cons] at hspan ⊢
        omega
      · next hflags =>
        split at h
        · cases h
        · cases h
          rw [hflags] at hspan
          simp only [List.length_cons] at hspan ⊢
          omega
      · cases h
    · cases h
  · cases h
    exact Nat.le_refl _

theorem length_readItem_le {p q : Progress} {c : Char} (h : readItem p c s = some (q, rest)) :
    rest.length ≤ s.length := by
  unfold readItem at h
  split at h
  · obtain ⟨⟨opening, behind⟩, hgroup, h⟩ := Option.bind_eq_some_iff.1 h
    obtain ⟨entered, -, h⟩ := Option.bind_eq_some_iff.1 h
    cases h
    exact Nat.le_trans (length_readGroup_le hgroup) (length_skip_le p.mode s)
  · obtain ⟨left, -, h⟩ := Option.map_eq_some_iff.1 h
    cases h
    exact Nat.le_refl _
  · cases h
    exact Nat.le_refl _
  · obtain ⟨behind, hclass, h⟩ := Option.map_eq_some_iff.1 h
    cases h
    exact Nat.le_of_lt (length_readWholeClass_lt hclass)
  · obtain ⟨⟨escape, behind⟩, hescape, h⟩ := Option.bind_eq_some_iff.1 h
    obtain ⟨taken, -, h⟩ := Option.bind_eq_some_iff.1 h
    cases h
    exact Nat.le_of_lt (length_readEscape_lt hescape)
  all_goals grind

/-! ## The bounds on the steps are never met -/

theorem readClass_of_lt {fuel more depth : Nat} {place : Place} (hfuel : s.length < fuel)
    (hmore : s.length < more) :
    readClass m fuel depth place s = readClass m more depth place s := by
  induction fuel generalizing more depth place s with
  | zero => cases hfuel
  | succ fuel ih =>
    obtain ⟨more, rfl⟩ : ∃ k, more = k + 1 := ⟨more - 1, by omega⟩
    -- reading goes on behind the next character at the earliest
    have hgo {depth : Nat} {place : Place} {rest : List Char} (h : rest.length < s.length) :
        readClass m fuel depth place rest = readClass m more depth place rest :=
      ih (by omega) (by omega)
    rw [readClass.eq_def, readClass.eq_def m (more + 1)]
    cases hs : m.skip s with
    | nil => rfl
    | cons c tail =>
      have htail := length_lt_of_skip hs
      refine ite_congr rfl (fun _ => hgo htail) fun _ => ?_
      refine ite_congr rfl (fun _ => hgo htail) fun _ => ?_
      split
      · split
        · next hname =>
          have := length_readNamedClass_lt hname
          exact ite_congr rfl (fun _ => rfl) fun _ => hgo (by omega)
        · refine Option.bind_congr fun behind hbehind => ?_
          have := length_readNegation_le hbehind
          exact hgo (by omega)
      · exact ite_congr rfl (fun _ => rfl) fun _ => hgo htail
      · rw [List.length_cons] at htail
        exact hgo (by omega)
      · rw [List.length_cons] at htail
        exact hgo (by omega)
      · rw [List.length_cons] at htail
        exact hgo (by omega)
      · refine Option.bind_congr fun behind hbehind => ?_
        have := length_readRange_lt hbehind
        rw [List.length_cons] at this
        exact hgo (by omega)

theorem run_of_le {fuel more : Nat} {p : Progress} (hfuel : s.length ≤ fuel)
    (hmore : s.length ≤ more) : run fuel p s = run more p s := by
  fun_induction run fuel p s generalizing more
  case case1 hs houter =>
    rw [run.eq_def, hs]
    exact (if_pos houter).symm
  case case2 hs houter =>
    rw [run.eq_def, hs]
    exact (if_neg houter).symm
  case case3 p s hs =>
    have hskip := Nat.le_trans (length_skip_le p.mode s) hfuel
    exact absurd (List.eq_nil_of_length_eq_zero (Nat.le_zero.1 hskip)) hs
  case case4 hs ih =>
    have := length_lt_of_skip hs
    obtain ⟨more, rfl⟩ : ∃ k, more = k + 1 := ⟨more - 1, by omega⟩
    rw [run.eq_def (more + 1), hs]
    refine Option.bind_congr fun ⟨q, behind⟩ hitem => ?_
    have := length_readItem_le hitem
    exact ih q behind (by omega) (by omega)

/-- A pattern is read item by item. -/
theorem run_cons {p : Progress} {c : Char} {tail : List Char} (hs : p.mode.skip s = c :: tail) :
    run s.length p s = (readItem p c tail).bind fun (p, rest) => run rest.length p rest := by
  have htail := length_lt_of_skip hs
  rw [run_of_le (Nat.le_refl s.length) (Nat.le_succ s.length), run.eq_def, hs]
  refine Option.bind_congr fun ⟨q, rest⟩ hitem => ?_
  have hrest := length_readItem_le hitem
  exact run_of_le (by omega) (Nat.le_refl _)

/-! ## Texts as patterns -/

/-- The marks of a pattern. -/
def marks : List Char := ['\\', '.', '+', '*', '?', '(', ')', '|', '[', '\x7b', '^', '$']

/-- The pattern of a character that stands for itself. -/
def escape (c : Char) : List Char := if c ∈ marks then ['\\', c] else [c]

theorem readEscape_of_mem_marks {c : Char} (h : c ∈ marks) (rest : List Char) :
    readEscape m (c :: rest) = some (.char c false, rest) := by
  simp only [marks, List.mem_cons, List.not_mem_nil, or_false] at h
  rcases h with rfl | rfl | rfl | rfl | rfl | rfl | rfl | rfl | rfl | rfl | rfl | rfl <;> rfl

variable {c : Char} {p : Progress}

theorem readItem_of_mem_marks (hp : p.mode = {}) (h : c ∈ marks) (rest : List Char) :
    readItem p '\\' (c :: rest) = some (p.item, rest) := by
  have hescape : p.escape (.char c false) = some p.item := by rw [Progress.escape, hp]; rfl
  change (readEscape p.mode (c :: rest)).bind _ = _
  rw [readEscape_of_mem_marks h]
  change (p.escape (.char c false)).bind _ = _
  rw [hescape]
  rfl

theorem readItem_of_notMem_marks (hp : p.mode = {}) (h : c ∉ marks) (rest : List Char) :
    readItem p c rest = some (p.item, rest) := by
  unfold readItem
  split
  all_goals first | exact absurd (by decide) h | skip
  rw [hp]
  rfl

/-- The pattern of a text leaves the flags and the groups as they were. -/
theorem run_flatMap_escape (s : List Char) (hp : p.mode = {}) :
    ∃ isRepeatable, run (s.flatMap escape).length p (s.flatMap escape) =
      run 0 { p with isRepeatable } [] := by
  induction s generalizing p with
  | nil => exact ⟨p.isRepeatable, rfl⟩
  | cons c s ih =>
    have hitem : p.item.mode = {} := hp
    obtain ⟨isRepeatable, hrun⟩ := ih hitem
    refine ⟨isRepeatable, Eq.trans ?_ hrun⟩
    rw [List.flatMap_cons, escape]
    split
    · next hmark =>
      rw [List.cons_append, List.singleton_append, run_cons (by rw [hp]; rfl),
        readItem_of_mem_marks hp hmark]
      rfl
    · next hmark =>
      rw [List.singleton_append, run_cons (by rw [hp]; rfl), readItem_of_notMem_marks hp hmark]
      rfl

/-- Every text can be written as a pattern. -/
theorem check_escape (s : List Char) : check (s.flatMap escape) = .ok () := by
  obtain ⟨isRepeatable, hrun⟩ := run_flatMap_escape (p := {}) s rfl
  rw [check, hrun]
  rfl

example : check "a+b".toList = .ok () ∧ check "+b".toList = .error .malformed := by decide

end ArrayStore.Text.Pattern
