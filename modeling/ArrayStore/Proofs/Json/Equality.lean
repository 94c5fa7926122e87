import ArrayStore.Proofs.Json.WellFormed
import Mathlib.Data.List.Basic

/-!
# Values that compare equal

Values may compare equal and not be the same, since the two zeros are equal numbers.

* `Number.write_append_inj`, `Value.write_append_inj` : of values that compare equal, only the same
  are written alike, whatever stands behind them;
* `Value.stored_eq_iff_of_same` : so only the same are stored alike;
* `Value.HoldsNegativeZero`, `Value.eq_of_same` : without negative zeros, values that compare equal
  are the same.
-/

namespace ArrayStore

/-! ## Zeros -/

namespace Double

theorem eq_of_magnitude_eq_zero {a b : Double} (ha : a.magnitude = 0) (hb : b.magnitude = 0)
    (hsign : a.isNegative = b.isNegative) : a = b := by
  have hbits : a.bits.toNat = b.bits.toNat := by
    have hA := a.bits.toNat_lt
    have hB := b.bits.toNat_lt
    unfold magnitude Word.half at ha hb
    unfold isNegative Word.half at hsign
    rw [decide_eq_decide] at hsign
    omega
  cases a
  cases b
  exact congrArg _ (UInt64.toNat_inj.1 hbits)

theorem text_of_magnitude_eq_zero {d : Double} (h : d.magnitude = 0) :
    d.text .stored = (if d.isNegative then ['-'] else []) ++ ['0', '.', '0'] := by
  have hnan : d.isNaN = false := by rw [isNaN, h]; rfl
  have hfinite : d.isFinite = true := by rw [isFinite, h]; rfl
  unfold text
  rw [hnan, hfinite, h]
  rfl

theorem eq_or_of_sameNumber {a b : Double} (h : a.sameNumber b = true) :
    a = b ∨ a.magnitude = 0 ∧ b.magnitude = 0 := by
  simpa [sameNumber] using h

end Double

namespace Json

/-- Numbers that compare equal are the same, or they are both zero. -/
theorem Number.eq_or_of_same {m n : Number} (h : m.same n = true) :
    m = n ∨ ∃ a b : Double, m = .double a ∧ n = .double b ∧ a.magnitude = 0 ∧ b.magnitude = 0 := by
  match m, n, h with
  | .integer i, .integer j, h => exact .inl (congrArg _ (beq_iff_eq.1 h))
  | .double a, .double b, h =>
    rcases Double.eq_or_of_sameNumber h with rfl | hzeros
    · exact .inl rfl
    · exact .inr ⟨a, b, rfl, rfl, hzeros⟩

/-- Only one of the zeros is written with a sign. -/
theorem Number.write_append_inj {m n : Number} (h : m.same n = true) {rest other : List Char}
    (heq : m.write ++ rest = n.write ++ other) : m = n ∧ rest = other := by
  rcases Number.eq_or_of_same h with rfl | ⟨a, b, rfl, rfl, ha, hb⟩
  · exact ⟨rfl, List.append_cancel_left heq⟩
  · rw [Number.write, Number.write, Double.text_of_magnitude_eq_zero ha,
      Double.text_of_magnitude_eq_zero hb] at heq
    have hsign : a.isNegative = b.isNegative := by
      cases hna : a.isNegative <;> cases hnb : b.isNegative <;> simp [hna, hnb] at heq ⊢
    rw [hsign] at heq
    exact ⟨congrArg _ (Double.eq_of_magnitude_eq_zero ha hb hsign), List.append_cancel_left heq⟩

/-! ## Texts -/

mutual

/-- Values that compare equal have their parts at the same places, so that the first part that is
not the same is where the texts differ. -/
theorem Value.write_append_inj : ∀ {v w : Value}, v.same w = true → ∀ {rest other : List Char},
    v.write ++ rest = w.write ++ other → v = w ∧ rest = other
  | .null, .null, _, _, _, heq => ⟨rfl, List.append_cancel_left heq⟩
  | .bool a, .bool b, h, _, _, heq => by
    cases beq_iff_eq.1 h
    exact ⟨rfl, List.append_cancel_left heq⟩
  | .string a, .string b, h, _, _, heq => by
    cases beq_iff_eq.1 h
    exact ⟨rfl, List.append_cancel_left heq⟩
  | .number m, .number n, h, _, _, heq => by
    obtain ⟨rfl, hrest⟩ := Number.write_append_inj h heq
    exact ⟨rfl, hrest⟩
  | .array [], .array [], _, _, _, heq => ⟨rfl, List.append_cancel_left heq⟩
  | .array (a :: as), .array (b :: bs), h, _, _, heq => by
    obtain ⟨hfirst, hothers⟩ := Bool.and_eq_true_iff.1 h
    rw [Value.write, Value.write, List.append_assoc, List.append_assoc] at heq
    obtain ⟨rfl, hbehind⟩ := Value.write_append_inj hfirst (List.cons.inj heq).2
    obtain ⟨rfl, hrest⟩ := Value.writeItems_append_inj hothers hbehind
    exact ⟨rfl, hrest⟩
  | .object [], .object [], _, _, _, heq => ⟨rfl, List.append_cancel_left heq⟩
  | .object ((k, a) :: as), .object ((l, b) :: bs), h, _, _, heq => by
    obtain ⟨hfirst, hothers⟩ := Bool.and_eq_true_iff.1 h
    obtain ⟨hkey, hvalue⟩ := Bool.and_eq_true_iff.1 hfirst
    cases beq_iff_eq.1 hkey
    rw [Value.write, Value.write] at heq
    simp only [List.cons_append, List.append_assoc, List.cons_inj_right, List.append_right_inj]
      at heq
    obtain ⟨rfl, hbehind⟩ := Value.write_append_inj hvalue heq
    obtain ⟨rfl, hrest⟩ := Value.writeMembers_append_inj hothers hbehind
    exact ⟨rfl, hrest⟩

theorem Value.writeItems_append_inj : ∀ {as bs : List Value}, Value.sameItems as bs = true →
    ∀ {rest other : List Char},
      Value.writeItems as ++ rest = Value.writeItems bs ++ other → as = bs ∧ rest = other
  | [], [], _, _, _, heq => ⟨rfl, List.append_cancel_left heq⟩
  | a :: as, b :: bs, h, _, _, heq => by
    obtain ⟨hfirst, hothers⟩ := Bool.and_eq_true_iff.1 h
    rw [Value.writeItems, Value.writeItems, List.append_assoc, List.append_assoc] at heq
    obtain ⟨rfl, hbehind⟩ := Value.write_append_inj hfirst (List.cons.inj heq).2
    obtain ⟨rfl, hrest⟩ := Value.writeItems_append_inj hothers hbehind
    exact ⟨rfl, hrest⟩

theorem Value.writeMembers_append_inj : ∀ {as bs : Members}, Value.sameMembers as bs = true →
    ∀ {rest other : List Char},
      Value.writeMembers as ++ rest = Value.writeMembers bs ++ other → as = bs ∧ rest = other
  | [], [], _, _, _, heq => ⟨rfl, List.append_cancel_left heq⟩
  | (k, a) :: as, (l, b) :: bs, h, _, _, heq => by
    obtain ⟨hfirst, hothers⟩ := Bool.and_eq_true_iff.1 h
    obtain ⟨hkey, hvalue⟩ := Bool.and_eq_true_iff.1 hfirst
    cases beq_iff_eq.1 hkey
    rw [Value.writeMembers, Value.writeMembers] at heq
    simp only [List.cons_append, List.append_assoc, List.cons_inj_right, List.append_right_inj]
      at heq
    obtain ⟨rfl, hbehind⟩ := Value.write_append_inj hvalue heq
    obtain ⟨rfl, hrest⟩ := Value.writeMembers_append_inj hothers hbehind
    exact ⟨rfl, hrest⟩

end

/-- Of values that compare equal, only the same are stored as one text. -/
theorem Value.stored_eq_iff_of_same {v w : Value} (h : v.same w = true) :
    v.stored = w.stored ↔ v = w := by
  refine ⟨fun heq => ?_, congrArg Value.stored⟩
  have hwrite : v.write = w.write → v = w := fun hwrite =>
    (Value.write_append_inj h (congrArg (· ++ []) hwrite)).1
  match v, w, h with
  | .null, .null, _ => rfl
  | .bool a, .bool b, h => rw [beq_iff_eq.1 h]
  | .string a, .string b, h => rw [beq_iff_eq.1 h]
  | .number m, .number n, _ => exact hwrite (String.ofList_inj.1 heq)
  | .array as, .array bs, _ => exact hwrite (String.ofList_inj.1 heq)
  | .object as, .object bs, _ => exact hwrite (String.ofList_inj.1 heq)

/-! ## Negative zeros -/

/-- There is a negative zero within the value, at any depth. -/
def Value.HoldsNegativeZero (v : Value) : Prop := .number (.double (.zero true)) ∈ v.parts

theorem Number.eq_of_same {m n : Number} (h : m.same n = true) (hm : m ≠ .double (.zero true))
    (hn : n ≠ .double (.zero true)) : m = n := by
  have hsign : ∀ d : Double, d.magnitude = 0 → Number.double d ≠ .double (.zero true) →
      d.isNegative = false := by
    intro d hd hne
    rw [← Bool.not_eq_true]
    exact fun hnegative => hne (congrArg _ (Double.eq_of_magnitude_eq_zero hd rfl hnegative))
  rcases Number.eq_or_of_same h with heq | ⟨a, b, rfl, rfl, ha, hb⟩
  · exact heq
  · have hsigns : a.isNegative = b.isNegative := (hsign a ha hm).trans (hsign b hb hn).symm
    exact congrArg _ (Double.eq_of_magnitude_eq_zero ha hb hsigns)

mutual

/-- Values that compare equal are the same if neither holds a negative zero. -/
theorem Value.eq_of_same : ∀ {v w : Value}, v.same w = true → ¬v.HoldsNegativeZero →
    ¬w.HoldsNegativeZero → v = w
  | .null, .null, _, _, _ => rfl
  | .bool _, .bool _, h, _, _ => congrArg _ (beq_iff_eq.1 h)
  | .string _, .string _, h, _, _ => congrArg _ (beq_iff_eq.1 h)
  | .number _, .number _, h, hv, hw =>
    congrArg _ (Number.eq_of_same h
      (fun hm => hv (List.mem_singleton.2 (congrArg _ hm.symm)))
      (fun hn => hw (List.mem_singleton.2 (congrArg _ hn.symm))))
  | .array _, .array _, h, hv, hw =>
    congrArg _ (Value.eq_of_sameItems h
      (fun _ hitem hzero => hv (Value.parts_subset_array hitem hzero))
      (fun _ hitem hzero => hw (Value.parts_subset_array hitem hzero)))
  | .object _, .object _, h, hv, hw =>
    congrArg _ (Value.eq_of_sameMembers h
      (fun _ hmember hzero => hv (Value.parts_subset_object hmember hzero))
      (fun _ hmember hzero => hw (Value.parts_subset_object hmember hzero)))

theorem Value.eq_of_sameItems : ∀ {as bs : List Value}, Value.sameItems as bs = true →
    (∀ item ∈ as, ¬item.HoldsNegativeZero) → (∀ item ∈ bs, ¬item.HoldsNegativeZero) → as = bs
  | [], [], _, _, _ => rfl
  | _ :: _, _ :: _, h, ha, hb => by
    obtain ⟨hfirst, hothers⟩ := Bool.and_eq_true_iff.1 h
    rw [List.forall_mem_cons] at ha hb
    rw [Value.eq_of_same hfirst ha.1 hb.1, Value.eq_of_sameItems hothers ha.2 hb.2]

theorem Value.eq_of_sameMembers : ∀ {as bs : Members}, Value.sameMembers as bs = true →
    (∀ member ∈ as, ¬member.2.HoldsNegativeZero) →
    (∀ member ∈ bs, ¬member.2.HoldsNegativeZero) → as = bs
  | [], [], _, _, _ => rfl
  | (_, _) :: _, (_, _) :: _, h, ha, hb => by
    obtain ⟨hfirst, hothers⟩ := Bool.and_eq_true_iff.1 h
    obtain ⟨hkey, hvalue⟩ := Bool.and_eq_true_iff.1 hfirst
    rw [List.forall_mem_cons] at ha hb
    rw [beq_iff_eq.1 hkey, Value.eq_of_same hvalue ha.1 hb.1,
      Value.eq_of_sameMembers hothers ha.2 hb.2]

end

end Json

end ArrayStore
