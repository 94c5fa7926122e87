import ArrayStore.Double.Read
import ArrayStore.Proofs.Json.WellFormed
import Mathlib.Data.List.TakeDrop
import Mathlib.Data.List.TakeWhile
import Mathlib.Tactic.SplitIfs

/-!
# Written numbers read back

What stands behind a number can change what is read, but not where a value ends.

* `Ends` : a text at which a value ends: nothing, a comma or a closing bracket;
* `readNumeral_append` : a number reads the same with such a text behind it;
* `readNode_succ_eq_number_iff` : the documents that are read as a number;
* `Number.ReadsBack` : a number that reads back by itself; `ReadsBack.readNode_append` : then it
  reads back within a document;
* `Number.readsBack_integer` : an integer of 64 bits reads back.
-/

namespace ArrayStore.Json
open Text

/-! ## Where a value ends -/

/-- A value ends here. -/
def Ends (rest : List Char) : Prop :=
  rest = [] ∨ ∃ c tail, rest = c :: tail ∧ (c = ',' ∨ c = ']' ∨ c = '\x7d')

theorem ends_nil : Ends [] := Or.inl rfl

theorem ends_comma (tail : List Char) : Ends (',' :: tail) := Or.inr ⟨_, _, rfl, by simp⟩

theorem ends_bracket (tail : List Char) : Ends (']' :: tail) := Or.inr ⟨_, _, rfl, by simp⟩

theorem ends_brace (tail : List Char) : Ends ('\x7d' :: tail) := Or.inr ⟨_, _, rfl, by simp⟩

variable {rest : List Char}

theorem skipSpace_cons {c : Char} (h : isSpace c = false) (tail : List Char) :
    skipSpace (c :: tail) = c :: tail :=
  List.dropWhile_cons_of_neg (by simp [h])

theorem span_cons_of_neg {p : Char → Bool} {c : Char} (h : p c = false) (tail : List Char) :
    (c :: tail).span p = ([], c :: tail) := by
  rw [List.span_eq_takeWhile_dropWhile, List.takeWhile_cons_of_neg (by simp [h]),
    List.dropWhile_cons_of_neg (by simp [h])]

theorem span_cons_of_pos {p : Char → Bool} {c : Char} (h : p c = true) (tail : List Char) :
    (c :: tail).span p = (c :: (tail.span p).1, (tail.span p).2) := by
  rw [List.span_eq_takeWhile_dropWhile, List.takeWhile_cons_of_pos h, List.dropWhile_cons_of_pos h,
    List.span_eq_takeWhile_dropWhile]

theorem Ends.span_eq (h : Ends rest) {p : Char → Bool} (hcomma : p ',' = false)
    (hbracket : p ']' = false) (hbrace : p '\x7d' = false) : rest.span p = ([], rest) := by
  rcases h with rfl | ⟨c, tail, rfl, rfl | rfl | rfl⟩
  · rfl
  · exact span_cons_of_neg hcomma tail
  · exact span_cons_of_neg hbracket tail
  · exact span_cons_of_neg hbrace tail

theorem Ends.span_isDigit (h : Ends rest) : rest.span isDigit = ([], rest) :=
  h.span_eq (by decide) (by decide) (by decide)

theorem Ends.skipSpace (h : Ends rest) : skipSpace rest = rest := by
  have hs := h.span_eq (p := isSpace) (by decide) (by decide) (by decide)
  rw [List.span_eq_takeWhile_dropWhile] at hs
  exact congrArg Prod.snd hs

theorem span_append {p : Char → Bool} {s first after : List Char} (h : s.span p = (first, after))
    (hrest : rest.span p = ([], rest)) : (s ++ rest).span p = (first, after ++ rest) := by
  induction s generalizing first with
  | nil =>
    cases h
    exact hrest
  | cons c s ih =>
    cases hc : p c with
    | true =>
      rw [span_cons_of_pos hc] at h
      cases h
      have hs : s.span p = ((s.span p).1, (s.span p).2) := rfl
      rw [List.cons_append, span_cons_of_pos hc, ih hs]
    | false =>
      rw [span_cons_of_neg hc] at h
      cases h
      exact span_cons_of_neg hc (s ++ rest)

theorem append_ne_cons {s : List Char} {c : Char} (hs : ∀ tail, s ≠ c :: tail) (hr : Ends rest)
    (hc : c ≠ ',' ∧ c ≠ ']' ∧ c ≠ '\x7d') (tail : List Char) : s ++ rest ≠ c :: tail := by
  intro h
  cases s with
  | nil =>
    rcases hr with rfl | ⟨d, others, rfl, hd⟩
    · cases h
    · cases h
      rcases hd with hd | hd | hd
      · exact hc.1 hd
      · exact hc.2.1 hd
      · exact hc.2.2 hd
  | cons d s =>
    cases h
    exact hs s rfl

/-! ## The parts of a number -/

theorem readWhole_append {s whole after : List Char} (h : readWhole s = some (whole, after))
    (hr : Ends rest) : readWhole (s ++ rest) = some (whole, after ++ rest) := by
  unfold readWhole at *
  cases hs : s.span isDigit with
  | mk digits others =>
    rw [span_append hs hr.span_isDigit]
    rw [hs] at h
    split at h <;> cases h
    split <;> simp_all

theorem readFraction_append {s after : List Char} {fraction : Option (List Char)}
    (h : readFraction s = some (fraction, after)) (hr : Ends rest) :
    readFraction (s ++ rest) = some (fraction, after ++ rest) := by
  unfold readFraction at h
  split at h
  · next s =>
    rw [List.cons_append, readFraction]
    cases hs : s.span isDigit with
    | mk digits others =>
      rw [span_append hs hr.span_isDigit]
      rw [hs] at h
      cases digits with
      | nil => cases h
      | cons d digits =>
        cases h
        rfl
  · next hs =>
    cases h
    rw [readFraction.eq_2]
    exact append_ne_cons hs hr (by decide)

/-- The sign of an exponent is read as any other sign. -/
theorem readExponent_cons (c : Char) (s : List Char) :
    readExponent (c :: s) =
      if c = 'e' || c = 'E' then
        match (Decimal.readSign s).2.span isDigit with
        | ([], _) => none
        | (digits, after) =>
          let n : Int := readDigits digits
          some (some (if (Decimal.readSign s).1 then -n else n), after)
      else some (none, c :: s) := by
  rw [readExponent.eq_def]
  rfl

theorem readSign_append {s : List Char} (hs : s ≠ []) (rest : List Char) :
    Decimal.readSign (s ++ rest) = ((Decimal.readSign s).1, (Decimal.readSign s).2 ++ rest) := by
  fun_cases Decimal.readSign s
  · rfl
  · rfl
  · next hminus hplus =>
    obtain ⟨c, s, rfl⟩ := List.exists_cons_of_ne_nil hs
    rw [List.cons_append, Decimal.readSign.eq_3]
    · intro others h
      cases h
      exact hminus _ rfl
    · intro others h
      cases h
      exact hplus _ rfl

theorem readExponent_append {s after : List Char} {exponent : Option Int}
    (h : readExponent s = some (exponent, after)) (hr : Ends rest) :
    readExponent (s ++ rest) = some (exponent, after ++ rest) := by
  cases s with
  | nil =>
    cases h
    rcases hr with rfl | ⟨c, tail, rfl, rfl | rfl | rfl⟩ <;> rfl
  | cons c s =>
    rw [List.cons_append, readExponent_cons]
    rw [readExponent_cons] at h
    by_cases hc : (c = 'e' || c = 'E') = true
    · rw [if_pos hc] at h ⊢
      have hs : s ≠ [] := by
        rintro rfl
        cases h
      rw [readSign_append hs]
      cases hd : (Decimal.readSign s).2.span isDigit with
      | mk digits others =>
        simp only [span_append hd hr.span_isDigit]
        rw [hd] at h
        cases digits with
        | nil => cases h
        | cons d digits =>
          cases h
          rfl
    · rw [if_neg hc] at h ⊢
      cases h
      rfl

theorem readNumeral_append {negative : Bool} {s after : List Char} {n : Numeral}
    (h : readNumeral negative s = some (n, after)) (hr : Ends rest) :
    readNumeral negative (s ++ rest) = some (n, after ++ rest) := by
  unfold readNumeral at *
  simp only [Option.bind_eq_bind] at *
  obtain ⟨⟨whole, s₁⟩, hwhole, h⟩ := Option.bind_eq_some_iff.1 h
  obtain ⟨⟨fraction, s₂⟩, hfraction, h⟩ := Option.bind_eq_some_iff.1 h
  obtain ⟨⟨exponent, s₃⟩, hexponent, h⟩ := Option.bind_eq_some_iff.1 h
  cases h
  simp only [readWhole_append hwhole hr, readFraction_append hfraction hr,
    readExponent_append hexponent hr, Option.bind_some]
  rfl

/-! ## Documents that are numbers -/

/-- A number starts with a digit, apart from its sign. -/
theorem exists_isDigit_of_readNumeral {negative : Bool} {s after : List Char} {n : Numeral}
    (h : readNumeral negative s = some (n, after)) :
    ∃ c tail, s = c :: tail ∧ isDigit c = true := by
  unfold readNumeral at h
  obtain ⟨⟨whole, s₁⟩, hwhole, h⟩ := Option.bind_eq_some_iff.1 h
  unfold readWhole at hwhole
  cases s with
  | nil => cases hwhole
  | cons c tail =>
    refine ⟨c, tail, rfl, ?_⟩
    by_contra hc
    rw [List.span_eq_takeWhile_dropWhile, List.takeWhile_cons_of_neg hc] at hwhole
    cases hwhole

theorem ne_of_isDigit {c d : Char} (hc : isDigit c = true) (hd : isDigit d = false) : c ≠ d := by
  rintro rfl
  rw [hd] at hc
  cases hc

/-- Documents of any other kind start otherwise. -/
theorem readNode_succ_eq_number_iff {fuel : Nat} {s after : List Char} {n : Numeral} :
    readNode (fuel + 1) s = some (.number n, after) ↔
      ∃ negative digits, skipSpace s = (if negative then ['-'] else []) ++ digits ∧
        readNumeral negative digits = some (n, after) := by
  constructor
  · intro h
    rw [readNode] at h
    split at h
    · cases h
    · next c tail hs =>
      rw [hs]
      split_ifs at h with hq hb hc hn ht hf hm
      · cases hr : readString tail <;> rw [hr] at h <;> cases h
      · split at h
        · cases h
        · cases hr : readItems fuel tail <;> rw [hr] at h <;> cases h
      · split at h
        · cases h
        · cases hr : readMembers fuel tail <;> rw [hr] at h <;> cases h
      · cases hr : expect "ull".toList tail <;> rw [hr] at h <;> cases h
      · cases hr : expect "rue".toList tail <;> rw [hr] at h <;> cases h
      · cases hr : expect "alse".toList tail <;> rw [hr] at h <;> cases h
      · obtain ⟨read, hr, h⟩ := Option.map_eq_some_iff.1 h
        cases h
        exact ⟨true, tail, by rw [hm]; rfl, hr⟩
      · obtain ⟨read, hr, h⟩ := Option.map_eq_some_iff.1 h
        cases h
        exact ⟨false, c :: tail, rfl, hr⟩
  · rintro ⟨negative, digits, hs, hr⟩
    rw [readNode]
    cases negative with
    | true =>
      rw [hs]
      show (readNumeral true digits).map _ = _
      rw [hr]
      rfl
    | false =>
      -- a digit passes all the tests for other kinds of documents
      obtain ⟨c, tail, rfl, hc⟩ := exists_isDigit_of_readNumeral hr
      rw [hs]
      show (if c = '"' then _ else _) = _
      rw [if_neg (ne_of_isDigit hc rfl), if_neg (ne_of_isDigit hc rfl),
        if_neg (ne_of_isDigit hc rfl), if_neg (ne_of_isDigit hc rfl),
        if_neg (ne_of_isDigit hc rfl), if_neg (ne_of_isDigit hc rfl),
        if_neg (ne_of_isDigit hc rfl), hr]
      rfl

theorem skipSpace_append (s : List Char) (hr : Ends rest) :
    skipSpace (s ++ rest) = skipSpace s ++ rest := by
  have hrest := hr.skipSpace
  unfold skipSpace at *
  rw [List.dropWhile_append]
  split_ifs with h
  · rw [hrest, List.isEmpty_iff.1 h, List.nil_append]
  · rfl

theorem exists_eq_number_of_value? {node : Node} {number : Number}
    (h : node.value? = some (.number number)) : ∃ n, node = .number n := by
  cases node with
  | number n => exact ⟨n, rfl⟩
  | string text => cases text <;> cases h
  | array items =>
    obtain ⟨read, -, h⟩ := Option.map_eq_some_iff.1 h
    cases h
  | object members =>
    obtain ⟨read, -, h⟩ := Option.map_eq_some_iff.1 h
    cases h
  | _ => cases h

/-- The text of the number, by itself, is a document that holds it. -/
def Number.ReadsBack (number : Number) : Prop :=
  Value.read? (String.ofList number.write) = some (.number number)

/-- A number that reads back by itself does so within a document, and what is left are blanks. -/
theorem Number.ReadsBack.readNode_append {number : Number} (h : number.ReadsBack) (fuel : Nat)
    (hr : Ends rest) :
    ∃ node after, readNode (fuel + 1) (number.write ++ rest) = some (node, after) ∧
      node.value? = some (.number number) ∧ skipSpace after = rest := by
  obtain ⟨node, hnode, hvalue⟩ := Option.bind_eq_some_iff.1 h
  obtain ⟨n, rfl⟩ := exists_eq_number_of_value? hvalue
  unfold Node.read? at hnode
  rw [String.toList_ofList] at hnode
  cases hread : readNode (2 * number.write.length + 2) number.write with
  | none =>
    rw [hread] at hnode
    cases hnode
  | some read =>
    obtain ⟨node, after⟩ := read
    simp only [hread] at hnode
    split_ifs at hnode with hafter
    cases hnode
    obtain ⟨negative, digits, hs, hdigits⟩ := readNode_succ_eq_number_iff.1 hread
    refine ⟨.number n, after ++ rest, readNode_succ_eq_number_iff.2
      ⟨negative, digits ++ rest, ?_, readNumeral_append hdigits hr⟩, hvalue, ?_⟩
    · rw [skipSpace_append _ hr, hs, List.append_assoc]
    · rw [skipSpace_append after hr, List.isEmpty_iff.1 hafter, List.nil_append]

/-! ## Integers -/

theorem isDigit_digitChar {n : Nat} (h : n < 10) : isDigit (digitChar n) = true := by
  have : ∀ m < 10, isDigit (digitChar m) = true := by decide
  exact this n h

theorem digitChar_ne_zero {n : Nat} (h : n < 10) (hn : 0 < n) : digitChar n ≠ '0' := by
  have : ∀ m < 10, 0 < m → digitChar m ≠ '0' := by decide
  exact this n h hn

theorem isDigit_of_mem_writeNat {n : Nat} {c : Char} (h : c ∈ writeNat n) : isDigit c = true := by
  induction n using Nat.strongRecOn with
  | _ n ih =>
    rw [writeNat] at h
    split at h
    · next hn => exact List.mem_singleton.1 h ▸ isDigit_digitChar hn
    · rcases List.mem_append.1 h with h | h
      · exact ih (n / 10) (by omega) h
      · exact List.mem_singleton.1 h ▸ isDigit_digitChar (by omega)

/-- No zero leads. -/
theorem exists_writeNat_eq_cons {n : Nat} (hn : 0 < n) :
    ∃ c tail, writeNat n = c :: tail ∧ c ≠ '0' := by
  induction n using Nat.strongRecOn with
  | _ n ih =>
    rw [writeNat]
    split
    · next h => exact ⟨_, [], rfl, digitChar_ne_zero h hn⟩
    · next h =>
      obtain ⟨c, tail, hc, hne⟩ := ih (n / 10) (by omega) (by omega)
      exact ⟨c, tail ++ [digitChar (n % 10)], by rw [hc, List.cons_append], hne⟩

theorem writeNat_ne_nil (n : Nat) : writeNat n ≠ [] := by
  rw [writeNat]
  split
  · exact List.cons_ne_nil _ _
  · exact List.append_ne_nil_of_right_ne_nil _ (List.cons_ne_nil _ _)

theorem span_writeNat (n : Nat) : (writeNat n).span isDigit = (writeNat n, []) := by
  have h : ∀ c ∈ writeNat n, isDigit c = true := fun _ => isDigit_of_mem_writeNat
  rw [List.span_eq_takeWhile_dropWhile, List.takeWhile_eq_self_iff.2 h,
    List.dropWhile_eq_nil_iff.2 h]

theorem readWhole_writeNat (n : Nat) : readWhole (writeNat n) = some (writeNat n, []) := by
  unfold readWhole
  rw [span_writeNat]
  split
  · next h =>
    exact absurd (congrArg Prod.fst h) (writeNat_ne_nil n)
  · next h =>
    cases n with
    | zero =>
      have h := congrArg Prod.fst h
      rw [writeNat] at h
      cases h
    | succ n =>
      obtain ⟨c, tail, hc, hne⟩ := exists_writeNat_eq_cons n.succ_pos
      have h := congrArg Prod.fst h
      rw [hc] at h
      exact absurd (List.head_eq_of_cons_eq h) hne
  · next h =>
    cases h
    rfl

theorem readNumeral_writeNat (negative : Bool) (n : Nat) :
    readNumeral negative (writeNat n) = some (⟨⟨negative, n, 0⟩, true⟩, []) := by
  unfold readNumeral
  rw [readWhole_writeNat]
  show some ((⟨⟨negative, readDigits (writeNat n ++ []), _⟩, _⟩ : Numeral), _) = _
  rw [List.append_nil, readDigits_writeNat]
  rfl

theorem isSpace_of_isDigit {c : Char} (h : isDigit c = true) : isSpace c = false := by
  unfold isSpace
  simp only [Bool.or_eq_false_iff, decide_eq_false_iff_not]
  exact ⟨⟨⟨ne_of_isDigit h rfl, ne_of_isDigit h rfl⟩, ne_of_isDigit h rfl⟩, ne_of_isDigit h rfl⟩

/-- A document of digits and maybe a sign. -/
theorem read?_of_readNumeral {negative : Bool} {digits : List Char} {n : Numeral}
    (h : readNumeral negative digits = some (n, [])) :
    Value.read? (String.ofList ((if negative then ['-'] else []) ++ digits)) =
      n.number?.map .number := by
  have hs : skipSpace ((if negative then ['-'] else []) ++ digits) =
      (if negative then ['-'] else []) ++ digits := by
    cases negative with
    | true => rfl
    | false =>
      obtain ⟨c, tail, rfl, hc⟩ := exists_isDigit_of_readNumeral h
      exact skipSpace_cons (isSpace_of_isDigit hc) tail
  have hread (fuel : Nat) :
      readNode (fuel + 1) ((if negative then ['-'] else []) ++ digits) = some (.number n, []) :=
    readNode_succ_eq_number_iff.2 ⟨negative, digits, hs, h⟩
  unfold Value.read? Node.read?
  rw [String.toList_ofList, hread]
  rfl

theorem number?_natural {n : Nat} (h : n < Word.limit) :
    Numeral.number? ⟨⟨false, n, 0⟩, true⟩ = some (.integer n) := by
  unfold Numeral.number?
  rw [if_pos rfl, if_pos (by simpa using h)]

theorem number?_negative {n : Nat} (hn : 0 < n) (h : n ≤ Word.half) :
    Numeral.number? ⟨⟨true, n, 0⟩, true⟩ = some (.integer (-n)) := by
  unfold Numeral.number?
  rw [if_pos rfl, if_neg (by simp), if_pos (by simpa using ⟨hn, h⟩)]

/-- An integer of 64 bits, with or without a sign, reads back. -/
theorem Number.readsBack_integer {i : Int} (h : (Number.integer i).Fits) :
    (Number.integer i).ReadsBack := by
  obtain ⟨hlow, hhigh⟩ := h
  cases i with
  | ofNat n =>
    exact (read?_of_readNumeral (readNumeral_writeNat false n)).trans
      (congrArg (Option.map Value.number) (number?_natural (Int.ofNat_lt.1 hhigh)))
  | negSucc n =>
    exact (read?_of_readNumeral (readNumeral_writeNat true (n + 1))).trans
      (congrArg (Option.map Value.number) (number?_negative n.succ_pos (by omega)))

end ArrayStore.Json
