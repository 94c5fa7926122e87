/-!
# The order of texts

* `Text.precedes` : the first text comes before the second. Characters are compared one by one by
  their code points, and a text comes before its continuations; the bytes of UTF-8 have the same
  order.
-/

namespace ArrayStore.Text

/-- The first list of characters comes strictly before the second. -/
def precedesChars : List Char → List Char → Bool
  | _, [] => false
  | [], _ :: _ => true
  | a :: as, b :: bs => decide (a.toNat < b.toNat) || (a.toNat == b.toNat && precedesChars as bs)

def precedes (a b : String) : Bool := precedesChars a.toList b.toList

theorem precedesChars_irrefl (s : List Char) : precedesChars s s = false := by
  induction s with
  | nil => rfl
  | cons c s ih => simp [precedesChars, ih]

theorem precedesChars_trans {a b c : List Char} (h₁ : precedesChars a b = true)
    (h₂ : precedesChars b c = true) : precedesChars a c = true := by
  induction a generalizing b c with
  | nil =>
    cases b with
    | nil => simp [precedesChars] at h₁
    | cons => cases c <;> simp_all [precedesChars]
  | cons x a ih =>
    cases b with
    | nil => simp [precedesChars] at h₁
    | cons y b =>
      cases c with
      | nil => simp [precedesChars] at h₂
      | cons z c =>
        simp only [precedesChars, Bool.or_eq_true, Bool.and_eq_true, decide_eq_true_eq,
          beq_iff_eq] at h₁ h₂ ⊢
        rcases h₁ with h₁ | ⟨e₁, h₁⟩ <;> rcases h₂ with h₂ | ⟨e₂, h₂⟩
        · left; omega
        · left; omega
        · left; omega
        · exact Or.inr ⟨by omega, ih h₁ h₂⟩

/-- Of two different texts one comes before the other. -/
theorem precedesChars_total {a b : List Char} (h : a ≠ b) :
    precedesChars a b = true ∨ precedesChars b a = true := by
  induction a generalizing b with
  | nil => cases b <;> simp_all [precedesChars]
  | cons x a ih =>
    cases b with
    | nil => simp [precedesChars]
    | cons y b =>
      simp only [precedesChars, Bool.or_eq_true, Bool.and_eq_true, decide_eq_true_eq,
        beq_iff_eq]
      rcases Nat.lt_trichotomy x.toNat y.toNat with hxy | hxy | hxy
      · exact Or.inl (Or.inl hxy)
      · have hc : x = y := Char.ext (UInt32.toNat_inj.1 hxy)
        subst hc
        rcases ih (fun e => h (by rw [e])) with h | h
        · exact Or.inl (Or.inr ⟨rfl, h⟩)
        · exact Or.inr (Or.inr ⟨rfl, h⟩)
      · exact Or.inr (Or.inl hxy)

theorem precedes_irrefl (s : String) : precedes s s = false := precedesChars_irrefl s.toList

theorem precedes_trans {a b c : String} (h₁ : precedes a b = true)
    (h₂ : precedes b c = true) : precedes a c = true := precedesChars_trans h₁ h₂

theorem precedes_total {a b : String} (h : a ≠ b) :
    precedes a b = true ∨ precedes b a = true :=
  precedesChars_total fun e => h (String.toList_inj.1 e)

end ArrayStore.Text
