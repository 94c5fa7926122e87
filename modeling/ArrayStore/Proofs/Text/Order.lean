import ArrayStore.Text.Order
import ArrayStore.Proofs.Text.Utf8

/-!
# Texts are ordered by their bytes

* `encodeChar_append_lt` : a character of a smaller code has the smaller bytes, whatever follows;
* `precedes_iff_encode_lt` : so a text comes before another exactly if its bytes do.
-/

namespace ArrayStore.Utf8
open ArrayStore.Text (precedes precedesChars)

/-- The first byte that differs decides, and it is part of both characters. -/
theorem encodeChar_append_lt {c d : Char} (h : c.toNat < d.toNat) (rest more : List UInt8) :
    encodeChar c ++ rest < encodeChar d ++ more := by
  have hd := isValidChar_toNat d
  -- all bytes but the first carry the digits of the code in base 64
  have h₂ : ∀ n : Nat, n / 4096 = n / 64 / 64 := fun n => (Nat.div_div_eq_div_mul n 64 64).symm
  have h₃ : ∀ n : Nat, n / 262144 = n / 64 / 64 / 64 := by
    intro n
    rw [Nat.div_div_eq_div_mul, Nat.div_div_eq_div_mul]
  simp only [encodeChar, h₂, h₃]
  split_ifs <;>
    simp only [List.cons_append, List.nil_append, List.cons_lt_cons_iff, UInt8.lt_iff_toNat_lt,
      ← UInt8.toNat_inj, toNat_continuation, UInt8.toNat_ofNat'] <;>
    omega

theorem append_lt_append_left_iff (bytes : List UInt8) {rest more : List UInt8} :
    bytes ++ rest < bytes ++ more ↔ rest < more := by
  induction bytes with
  | nil => rfl
  | cons b bytes ih =>
    rw [List.cons_append, List.cons_append, List.cons_lt_cons_iff, ih]
    exact ⟨fun h => h.elim (fun hb => absurd hb (UInt8.lt_irrefl b)) And.right,
      fun h => Or.inr ⟨rfl, h⟩⟩

theorem precedesChars_iff_encodeChars_lt {as bs : List Char} :
    precedesChars as bs = true ↔ encodeChars as < encodeChars bs := by
  induction as generalizing bs with
  | nil =>
    cases bs with
    | nil => simp [precedesChars, encodeChars]
    | cons b bs =>
      obtain ⟨x, xs, hx⟩ := List.exists_cons_of_ne_nil
        (List.append_ne_nil_of_left_ne_nil (encodeChar_ne_nil b) (encodeChars bs))
      rw [encodeChars_cons, hx]
      simp [precedesChars, encodeChars]
  | cons a as ih =>
    cases bs with
    | nil => simp [precedesChars, encodeChars]
    | cons b bs =>
      rw [encodeChars_cons, encodeChars_cons]
      simp only [precedesChars, Bool.or_eq_true, Bool.and_eq_true, decide_eq_true_eq, beq_iff_eq]
      rcases Nat.lt_trichotomy a.toNat b.toNat with hlt | heq | hgt
      · have hbytes := encodeChar_append_lt hlt (encodeChars as) (encodeChars bs)
        exact ⟨fun _ => hbytes, fun _ => Or.inl hlt⟩
      · have hab : a = b := Char.toNat_inj.1 heq
        rw [hab, append_lt_append_left_iff, ← ih]
        simp
      · have hbytes := encodeChar_append_lt hgt (encodeChars bs) (encodeChars as)
        refine ⟨fun h => ?_, fun h => absurd hbytes (List.lt_asymm h)⟩
        omega

theorem precedes_iff_encode_lt {a b : String} :
    precedes a b = true ↔ encode a < encode b :=
  precedesChars_iff_encodeChars_lt

end ArrayStore.Utf8
