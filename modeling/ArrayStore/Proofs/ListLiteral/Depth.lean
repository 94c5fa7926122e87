import ArrayStore.Proofs.ListLiteral.Parts
import ArrayStore.Proofs.ListLiteral.RoundTrip

/-!
# The bracket depth of a literal

The reader of bare tokens counts brackets wherever they stand.

* `Passes` : the depth before and behind a text that has no comma outside brackets;
* `Passes.append` : one text behind another;
* `Passes.escaped`, `Passes.quote` : escapes and quotes leave the depth to the text;
* `passes_join` : so do the separators within a list.
-/

namespace ArrayStore.ListLiteral
open Text

/-- Read at the depth `before`, the text has no comma outside brackets and ends at `behind`. -/
def Passes (before : Nat) (s : List Char) (behind : Nat) : Prop :=
  EnclosesCommas before s ∧ depthBehind before s = behind

theorem passes_nil (depth : Nat) : Passes depth [] depth := ⟨enclosesCommas_nil depth, rfl⟩

theorem passes_cons {before behind : Nat} {c : Char} {s : List Char} :
    Passes before (c :: s) behind ↔
      (c = ',' → 0 < before) ∧ Passes (depthAfter before c) s behind := by
  unfold Passes
  rw [enclosesCommas_cons, and_assoc]
  rfl

theorem Passes.append {before between behind : Nat} {s t : List Char}
    (hs : Passes before s between) (ht : Passes between t behind) :
    Passes before (s ++ t) behind := by
  induction s generalizing before with
  | nil =>
    obtain rfl : before = between := hs.2
    exact ht
  | cons c s ih =>
    obtain ⟨hc, hs⟩ := passes_cons.1 hs
    exact passes_cons.2 ⟨hc, ih hs⟩

/-- A character that is no comma and no bracket. -/
theorem passes_singleton {c : Char} (hc : c ≠ ',') {depth : Nat}
    (hd : depthAfter depth c = depth) : Passes depth [c] depth :=
  passes_cons.2 ⟨fun h => (hc h).elim, hd.symm ▸ passes_nil depth⟩

theorem passes_quote_mark {c : Char} (h : isQuote c = true) (depth : Nat) :
    Passes depth [c] depth := by
  rcases isQuote_iff.1 h with rfl | rfl
  · exact passes_singleton (by decide) rfl
  · exact passes_singleton (by decide) rfl

/-- An escape neither opens nor closes a bracket, and hides no comma. -/
theorem Passes.escapeChar {before behind : Nat} {c : Char} (h : Passes before [c] behind)
    (delimiter : Char) : Passes before (escapeChar delimiter c) behind := by
  have hslash : Passes before ['\\'] before := passes_singleton (by decide) rfl
  have hd := h.2
  unfold ListLiteral.escapeChar
  split_ifs with hb hn ht hc
  · subst hb hd
    exact hslash.append hslash
  · subst hn hd
    exact hslash.append (passes_singleton (by decide) rfl)
  · subst ht hd
    exact hslash.append (passes_singleton (by decide) rfl)
  · exact hslash.append h
  · exact h

theorem Passes.escaped {before behind : Nat} {text : List Char} (h : Passes before text behind)
    (delimiter : Char) :
    Passes before (text.flatMap (ListLiteral.escapeChar delimiter)) behind := by
  induction text generalizing before with
  | nil => exact h
  | cons c text ih =>
    obtain ⟨hc, hrest⟩ := passes_cons.1 h
    have hfirst : Passes before [c] (depthAfter before c) := passes_cons.2 ⟨hc, passes_nil _⟩
    rw [List.flatMap_cons]
    exact (hfirst.escapeChar delimiter).append (ih hrest)

theorem Passes.quote {before behind : Nat} {text : List Char} (h : Passes before text behind) :
    Passes before (quote text) behind := by
  have hmark := passes_quote_mark (isQuote_delimiterOf text)
  exact ((hmark before).append (h.escaped _)).append (hmark behind)

/-- The commas between entries stand within the bracket around them. -/
theorem passes_join {written : List (List Char)} (h : ∀ entry ∈ written, Passes 1 entry 1) :
    Passes 1 (join written) 1 := by
  induction written with
  | nil => exact passes_nil 1
  | cons first others ih =>
    obtain ⟨hfirst, hothers⟩ := List.forall_mem_cons.1 h
    cases others with
    | nil => exact hfirst
    | cons second others =>
      have hcomma : Passes 1 [',', ' '] 1 :=
        passes_cons.2 ⟨fun _ => Nat.one_pos, passes_singleton (by decide) rfl⟩
      rw [join]
      · exact (hfirst.append hcomma).append (ih hothers)
      · exact List.cons_ne_nil second others

end ArrayStore.ListLiteral
