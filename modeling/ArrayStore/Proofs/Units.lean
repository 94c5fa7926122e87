import ArrayStore.Proofs.ListLiteral.Acceptance
import ArrayStore.Proofs.ListLiteral.RoundTrip
import ArrayStore.Units

/-!
# Units read back from their attribute

* `ofAttribute_render` : a literal reads back, unless all its entries are empty;
* `ofAttribute_of_not_opensBracket` : a text that opens no bracket is one unit;
* `IsVoid` : the unit lists that read back as none;
* `ofAttribute_toAttribute` : every other one reads back as it is.
-/

namespace ArrayStore.Units
open Text ListLiteral

/-! ## Literals -/

theorem entries?_render (units : List String) :
    entries? (render units) = some (units.map fun unit => .quoted unit.toList) :=
  entries?_bracket (readsAs_quotes units)

theorem mapM_quotedText? (units : List String) :
    (units.map fun unit => Entry.quoted unit.toList).mapM quotedText? = some units := by
  induction units with
  | nil => rfl
  | cons unit units ih =>
    rw [List.map_cons, List.mapM_cons, ih, quotedText?, String.ofList_toList]
    rfl

theorem trim_render_ne_nil (units : List String) : trim (render units).toList ≠ [] := by
  unfold render bracket
  rw [String.toList_ofList, trim_of_not_blank (by decide) (by decide)]
  exact List.cons_ne_nil _ _

/-- A literal reads back, unless all its entries are empty. -/
theorem ofAttribute_render (units : List String) :
    ofAttribute (render units) = if ∀ unit ∈ units, unit = "" then none else some units := by
  unfold ofAttribute
  rw [if_neg (by rw [List.isEmpty_iff]; exact trim_render_ne_nil units), entries?_render,
    Option.bind_some, mapM_quotedText?]
  simp only [List.all_eq_true, String.isEmpty_iff]

/-! ## Single units -/

theorem opensBracket_of_entries? {unit : String} {entries : List Entry}
    (h : entries? unit = some entries) : opensBracket unit = true := by
  obtain ⟨l, hl, -⟩ := entries?_eq_some_iff.1 h
  unfold opensBracket
  rw [← hl, Literal.written, List.append_assoc, l.before.trimLeft_append, List.cons_append,
    trimLeft_cons_of_not_blank (by decide)]
  rfl

theorem trim_eq_nil_iff (s : List Char) : trim s = [] ↔ s.all isBlank = true := by
  rw [List.all_eq_true]
  constructor
  · intro h
    obtain ⟨before, after, hs⟩ := exists_blanks_append_trim s
    rw [h, List.append_nil] at hs
    rw [← hs, List.forall_mem_append]
    exact ⟨before.all_blank, after.all_blank⟩
  · intro h
    have ht : trimLeft s = [] := Blanks.trimLeft_chars ⟨s, h⟩
    unfold trim
    rw [ht]
    rfl

/-- A text that opens no bracket is one unit, if it is not blank. -/
theorem ofAttribute_of_not_opensBracket {unit : String} (h : opensBracket unit = false) :
    ofAttribute unit = if unit.toList.all isBlank then none else some [unit] := by
  have hn : entries? unit = none := by
    rw [← Option.not_isSome_iff_eq_none, Option.isSome_iff_exists]
    rintro ⟨entries, he⟩
    rw [opensBracket_of_entries? he] at h
    cases h
  unfold ofAttribute
  rw [hn, Option.bind_none]
  simp only [List.isEmpty_iff, trim_eq_nil_iff]

/-! ## Unit lists -/

/-- No units, only empty ones, or a single one of white space. -/
def IsVoid : Option (List String) → Prop
  | none => True
  | some units => (∀ unit ∈ units, unit = "") ∨
      units.length = 1 ∧ ∀ unit ∈ units, unit.toList.all isBlank = true

instance (units : Option (List String)) : Decidable (IsVoid units) := by
  unfold IsVoid
  split <;> infer_instance

theorem isVoid_singleton_iff (unit : String) :
    IsVoid (some [unit]) ↔ unit.toList.all isBlank = true := by
  simp only [IsVoid, List.mem_singleton, forall_eq, List.length_singleton, true_and]
  constructor
  · rintro (rfl | h)
    · rfl
    · exact h
  · exact Or.inr

theorem isVoid_iff_of_length_ne_one {units : List String} (h : units.length ≠ 1) :
    IsVoid (some units) ↔ ∀ unit ∈ units, unit = "" := by
  simp only [IsVoid, h, false_and, or_false]

theorem not_blank_of_opensBracket {unit : String} (h : opensBracket unit = true) :
    ¬unit.toList.all isBlank = true := by
  intro hb
  unfold opensBracket at h
  rw [Blanks.trimLeft_chars ⟨unit.toList, List.all_eq_true.1 hb⟩] at h
  cases h

theorem toAttribute_of_length_ne_one {units : List String} (h : units.length ≠ 1) :
    toAttribute (some units) = render units := by
  match units, h with
  | [], _ => rfl
  | [_], h => exact (h rfl).elim
  | _ :: _ :: _, _ => rfl

/-- A single unit that opens a bracket stands in quotes, any other stands for itself. -/
theorem ofAttribute_toAttribute_singleton (unit : String) :
    ofAttribute (toAttribute (some [unit])) =
      if IsVoid (some [unit]) then none else some [unit] := by
  show ofAttribute (if opensBracket unit then render [unit] else unit) = _
  simp only [isVoid_singleton_iff]
  cases hb : opensBracket unit with
  | true =>
    have hn := not_blank_of_opensBracket hb
    have he : ¬∀ u ∈ [unit], u = "" := by
      rw [List.forall_mem_singleton]
      rintro rfl
      exact hn rfl
    rw [if_pos rfl, ofAttribute_render, if_neg he, if_neg hn]
  | false => rw [if_neg (by decide), ofAttribute_of_not_opensBracket hb]

theorem ofAttribute_toAttribute_eq (units : Option (List String)) :
    ofAttribute (toAttribute units) = if IsVoid units then none else units := by
  cases units with
  | none => rfl
  | some units =>
    by_cases h : units.length = 1
    · obtain ⟨unit, rfl⟩ := List.length_eq_one_iff.1 h
      exact ofAttribute_toAttribute_singleton unit
    · rw [toAttribute_of_length_ne_one h, ofAttribute_render]
      simp only [isVoid_iff_of_length_ne_one h]

/-- Units read back as they are, the void ones as none. So one unit is never read back as several,
nor are several as one. -/
theorem ofAttribute_toAttribute (units : Option (List String)) :
    ofAttribute (toAttribute units) = (if IsVoid units then none else units) ∧
      ∀ written read, units = some written → ofAttribute (toAttribute units) = some read →
        read.length = written.length := by
  refine ⟨ofAttribute_toAttribute_eq units, ?_⟩
  rintro written read rfl hr
  rw [ofAttribute_toAttribute_eq] at hr
  split at hr
  · cases hr
  · cases hr
    rfl

/-- A single unit that looks like a list of two. -/
def listLikeUnit : String := " ['V', 'A']"

theorem ofAttribute_toAttribute_listLikeUnit :
    ofAttribute (toAttribute (some [listLikeUnit])) = some [listLikeUnit] ∧
      [listLikeUnit].length = [listLikeUnit].length := by
  have hv : ¬IsVoid (some [listLikeUnit]) := by
    rw [isVoid_singleton_iff]
    exact not_blank_of_opensBracket (by decide +kernel)
  have h := ofAttribute_toAttribute (some [listLikeUnit])
  rw [if_neg hv] at h
  exact ⟨h.1, h.2 _ _ rfl h.1⟩

end ArrayStore.Units
