import ArrayStore.Proofs.ListLiteral.Grammar
import ArrayStore.Proofs.ListLiteral.Reader
import Mathlib.Data.List.TakeWhile

/-!
# The parts of a literal, read and derived

For each part of the grammar: the reader takes a derived text back whole, what the reader takes is
derived, and a text has no two derivations.

* `Blanks` : `Blanks.trimLeft_append`, `exists_blanks_append_trimLeft`, `Blanks.append_inj`, and
  the same for blanks at the end;
* `Piece` : `readQuoted_pieces`, `exists_pieces_of_readQuoted`, `pieces_append_inj`;
* `BareToken` : `readBare_append`, `readBare_eq`, `BareToken.ofStart`.
-/

namespace ArrayStore.ListLiteral
open Text

/-! ## White space -/

theorem Blanks.trimLeft_append (b : Blanks) (s : List Char) :
    trimLeft (b.chars ++ s) = trimLeft s := by
  unfold trimLeft
  rw [List.dropWhile_append_of_pos b.all_blank]

theorem Blanks.trimLeft_chars (b : Blanks) : trimLeft b.chars = [] := by
  rw [← List.append_nil b.chars, b.trimLeft_append]
  rfl

theorem exists_blanks_append_trimLeft (s : List Char) : ∃ b : Blanks, b.chars ++ trimLeft s = s :=
  ⟨⟨s.takeWhile isBlank, fun _ => List.mem_takeWhile_imp⟩, List.takeWhile_append_dropWhile⟩

/-- Blanks end where a text without blanks at its beginning starts. -/
theorem Blanks.append_inj {a b : Blanks} {s t : List Char} (hs : trimLeft s = s)
    (ht : trimLeft t = t) (h : a.chars ++ s = b.chars ++ t) : a = b ∧ s = t := by
  have hst : s = t := by
    have hl := congrArg trimLeft h
    rwa [a.trimLeft_append, b.trimLeft_append, hs, ht] at hl
  subst hst
  exact ⟨Blanks.ext (List.append_cancel_right h), rfl⟩

def Blanks.reverse (b : Blanks) : Blanks :=
  ⟨b.chars.reverse, fun c hc => b.all_blank c (List.mem_reverse.1 hc)⟩

/-- Blanks at the end start behind the last character that is none. -/
theorem Blanks.append_inj_right {a b : Blanks} {c : Char} {s t : List Char}
    (hc : isBlank c = false) (h : s ++ c :: a.chars = t ++ c :: b.chars) : s = t ∧ a = b := by
  have hr := congrArg List.reverse h
  simp only [List.reverse_append, List.reverse_cons, List.append_assoc] at hr
  obtain ⟨hab, hst⟩ := Blanks.append_inj (a := a.reverse) (b := b.reverse)
    (trimLeft_cons_of_not_blank hc) (trimLeft_cons_of_not_blank hc) hr
  refine ⟨List.reverse_injective (List.cons.inj hst).2, ?_⟩
  exact Blanks.ext (List.reverse_injective (congrArg Blanks.chars hab))

theorem Blanks.trimRight_append (b : Blanks) (s : List Char) :
    trimRight (s ++ b.chars) = trimRight s := by
  show (trimLeft (s ++ b.chars).reverse).reverse = (trimLeft s.reverse).reverse
  rw [List.reverse_append]
  exact congrArg List.reverse (b.reverse.trimLeft_append s.reverse)

theorem exists_blanks_append_trim (s : List Char) :
    ∃ before after : Blanks, before.chars ++ trim s ++ after.chars = s := by
  obtain ⟨before, hb⟩ := exists_blanks_append_trimLeft s
  obtain ⟨after, ha⟩ := exists_blanks_append_trimLeft (trimLeft s).reverse
  refine ⟨before, after.reverse, ?_⟩
  have hr := congrArg List.reverse ha
  rw [List.reverse_append, List.reverse_reverse] at hr
  rw [List.append_assoc]
  exact (congrArg (before.chars ++ ·) hr).trans hb

/-- The blanks around a text without blanks at its ends are dropped. -/
theorem Blanks.trim_append {first last : Char} {s : List Char} (hf : isBlank first = false)
    (hl : isBlank last = false) (before after : Blanks) :
    trim (before.chars ++ (first :: s ++ [last] ++ after.chars)) = first :: s ++ [last] := by
  unfold trim
  rw [before.trimLeft_append, List.cons_append, List.cons_append, trimLeft_cons_of_not_blank hf,
    ← List.cons_append, ← List.cons_append, after.trimRight_append,
    trimRight_append_of_not_blank hl]

/-! ## Quoted strings -/

theorem isQuote_iff {c : Char} : isQuote c = true ↔ c = apostrophe ∨ c = '"' := by
  unfold isQuote
  rw [Bool.or_eq_true, decide_eq_true_eq, decide_eq_true_eq]

theorem QuotedText.isQuote (q : QuotedText) : isQuote q.delimiter = true :=
  isQuote_iff.2 q.isQuote_delimiter

section Quoted
variable {delimiter : Char}

theorem Piece.char_escaped (c : Char) :
    (Piece.escaped c : Piece delimiter).char = unescape c := by
  unfold Piece.char unescape
  split <;> simp_all

theorem readQuoted_pieces (hd : delimiter ≠ '\\') (pieces : List (Piece delimiter))
    (rest : List Char) :
    readQuoted delimiter (pieces.flatMap Piece.written ++ delimiter :: rest) =
      some (pieces.map Piece.char, rest) := by
  induction pieces with
  | nil => exact readQuoted_delimiter hd rest
  | cons piece pieces ih =>
    rw [List.flatMap_cons, List.append_assoc, List.map_cons]
    cases piece with
    | plain c hc hb =>
      rw [Piece.written, List.singleton_append, readQuoted_cons hb hc, ih]
      rfl
    | escaped c =>
      rw [Piece.written, List.cons_append, List.singleton_append, readQuoted_backslash, ih,
        Piece.char_escaped]
      rfl

theorem exists_pieces_of_readQuoted {s text rest : List Char}
    (h : readQuoted delimiter s = some (text, rest)) :
    ∃ pieces : List (Piece delimiter),
      s = pieces.flatMap Piece.written ++ delimiter :: rest ∧ text = pieces.map Piece.char := by
  fun_induction readQuoted delimiter s generalizing text rest with
  | case1 | case2 => cases h
  | case3 c s ih =>
    obtain ⟨⟨read, after⟩, hr, he⟩ := Option.map_eq_some_iff.1 h
    cases he
    obtain ⟨pieces, hs, ht⟩ := ih hr
    refine ⟨.escaped c :: pieces, ?_, ?_⟩
    · rw [hs]; rfl
    · rw [ht, List.map_cons, Piece.char_escaped]
  | case4 s =>
    cases h
    exact ⟨[], rfl, rfl⟩
  | case5 c s hnil hcons hc ih =>
    obtain ⟨⟨read, after⟩, hr, he⟩ := Option.map_eq_some_iff.1 h
    cases he
    obtain ⟨pieces, hs, ht⟩ := ih hr
    have hb : c ≠ '\\' := by
      intro hb
      cases s with
      | nil => exact hnil hb rfl
      | cons d s => exact hcons d s hb rfl
    refine ⟨.plain c hc hb :: pieces, ?_, ?_⟩
    · rw [hs]; rfl
    · rw [ht]; rfl

theorem Piece.written_append_inj {p q : Piece delimiter} {s t : List Char}
    (h : p.written ++ s = q.written ++ t) : p = q ∧ s = t := by
  cases p with
  | plain c hc hb =>
    cases q with
    | plain d hd hb' =>
      obtain ⟨rfl, hst⟩ := List.cons.inj h
      exact ⟨rfl, hst⟩
    | escaped d => exact (hb (List.cons.inj h).1).elim
  | escaped c =>
    cases q with
    | plain d hd hb' => exact (hb' (List.cons.inj h).1.symm).elim
    | escaped d =>
      obtain ⟨rfl, hst⟩ := List.cons.inj (List.cons.inj h).2
      exact ⟨rfl, hst⟩

theorem Piece.written_append_ne (hd : delimiter ≠ '\\') (p : Piece delimiter) (s t : List Char) :
    p.written ++ s ≠ delimiter :: t := by
  intro h
  cases p with
  | plain c hc hb => exact hc (List.cons.inj h).1
  | escaped c => exact hd (List.cons.inj h).1.symm

/-- The pieces of a string end at its delimiter, and no other pieces are written so. -/
theorem pieces_append_inj (hd : delimiter ≠ '\\') {ps qs : List (Piece delimiter)}
    {s t : List Char} (h : ps.flatMap Piece.written ++ delimiter :: s =
      qs.flatMap Piece.written ++ delimiter :: t) : ps = qs ∧ s = t := by
  induction ps generalizing qs with
  | nil =>
    cases qs with
    | nil => exact ⟨rfl, (List.cons.inj h).2⟩
    | cons q qs =>
      rw [List.flatMap_cons, List.append_assoc] at h
      exact (q.written_append_ne hd _ _ h.symm).elim
  | cons p ps ih =>
    rw [List.flatMap_cons, List.append_assoc] at h
    cases qs with
    | nil => exact (p.written_append_ne hd _ _ h).elim
    | cons q qs =>
      rw [List.flatMap_cons, List.append_assoc] at h
      obtain ⟨rfl, htail⟩ := Piece.written_append_inj h
      obtain ⟨rfl, hst⟩ := ih htail
      exact ⟨rfl, hst⟩

end Quoted

/-! ## Bare tokens -/

theorem enclosesCommas_nil (depth : Nat) : EnclosesCommas depth [] := by
  intro front back h
  cases front <;> cases h

theorem enclosesCommas_cons {depth : Nat} {c : Char} {s : List Char} :
    EnclosesCommas depth (c :: s) ↔
      (c = ',' → 0 < depth) ∧ EnclosesCommas (depthAfter depth c) s := by
  constructor
  · intro h
    refine ⟨fun hc => h [] s (by rw [hc]; rfl), fun front back hs => ?_⟩
    exact h (c :: front) back (by rw [hs]; rfl)
  · rintro ⟨hc, hs⟩ front back h
    cases front with
    | nil => exact hc (List.cons.inj h).1
    | cons d front =>
      obtain ⟨rfl, htail⟩ := List.cons.inj h
      exact hs front back htail

theorem readBare_cons (depth : Nat) (c : Char) (s : List Char) :
    readBare depth (c :: s) =
      if c = ',' && depth == 0 then ([], c :: s)
      else (c :: (readBare (depthAfter depth c) s).1, (readBare (depthAfter depth c) s).2) := rfl

/-- A token is read up to the text that ends it. -/
theorem readBare_append {depth : Nat} {s rest : List Char} (hs : EnclosesCommas depth s)
    (hc : Closes rest) (hd : rest ≠ [] → depthBehind depth s = 0) :
    readBare depth (s ++ rest) = (s, rest) := by
  induction s generalizing depth with
  | nil =>
    rcases hc with rfl | ⟨tail, rfl⟩
    · rfl
    · have hz : depth = 0 := hd (List.cons_ne_nil _ _)
      rw [List.nil_append, readBare_cons, hz]
      rfl
  | cons c s ih =>
    obtain ⟨hcomma, hs⟩ := enclosesCommas_cons.1 hs
    have hn : ¬(c = ',' && depth == 0) = true := by
      rw [Bool.and_eq_true, decide_eq_true_eq, beq_iff_eq]
      rintro ⟨hc, hz⟩
      exact Nat.ne_of_gt (hcomma hc) hz
    rw [List.cons_append, readBare_cons, if_neg hn, ih hs hd]

/-- What is read as a token is one, and ends where a token does. -/
theorem readBare_eq {depth : Nat} {s token rest : List Char}
    (h : readBare depth s = (token, rest)) :
    token ++ rest = s ∧ EnclosesCommas depth token ∧ Closes rest ∧
      (rest ≠ [] → depthBehind depth token = 0) := by
  induction s generalizing depth token rest with
  | nil =>
    cases h
    exact ⟨rfl, enclosesCommas_nil depth, Or.inl rfl, fun hr => (hr rfl).elim⟩
  | cons c s ih =>
    rw [readBare_cons] at h
    split at h
    · next hc =>
      cases h
      rw [Bool.and_eq_true, decide_eq_true_eq, beq_iff_eq] at hc
      exact ⟨rfl, enclosesCommas_nil depth, Or.inr ⟨s, by rw [hc.1]⟩, fun _ => hc.2⟩
    · next hc =>
      obtain ⟨rfl, rfl⟩ := Prod.mk.inj h
      obtain ⟨happ, henc, hcl, hd⟩ := ih rfl
      refine ⟨congrArg (c :: ·) happ, enclosesCommas_cons.2 ⟨fun hcomma => ?_, henc⟩, hcl, hd⟩
      rw [hcomma, Bool.and_eq_true, beq_iff_eq] at hc
      exact Nat.pos_of_ne_zero fun hz => hc ⟨rfl, hz⟩

/-- The token that starts a text which begins with neither a blank nor a quote. -/
def BareToken.ofStart {c : Char} {tail chars rest : List Char} (hb : isBlank c = false)
    (hq : ¬isQuote c = true) (happ : chars ++ rest = c :: tail) (henc : EnclosesCommas 0 chars) :
    BareToken where
  chars := chars
  start d hd := by
    obtain ⟨chars, rfl⟩ := List.head?_eq_some_iff.1 hd
    obtain ⟨rfl, -⟩ := List.cons.inj happ
    rw [isQuote_iff, not_or] at hq
    exact ⟨hb, hq⟩
  enclosesCommas := henc

end ArrayStore.ListLiteral
