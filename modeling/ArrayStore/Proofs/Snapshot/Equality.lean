import ArrayStore.Proofs.Json.Equality
import ArrayStore.Proofs.Snapshot.Recording

/-!
# Snapshots that compare equal

* `recorded` : the values behind the listed texts; `names` : what a listing lists;
* `forall₂_of_same` : snapshots that compare equal have equal objects at the same places;
* `valueText_eq_iff_of_sameMembers` : the texts of two equal objects are the same just if their
  values are;
* `values_of_same` : so snapshots that compare equal are listed alike up to the signs of zeros;
* `exists_same_values_ne` : with a zero of either sign, they are not.
-/

namespace ArrayStore.Snapshot
open Keyed (find?)

/-- The values of all parameters, in the order in which their texts are listed. -/
def recorded (s : Snapshot) : List (String × List (String × Option Json.Value)) :=
  s.instruments.map fun (name, parameters) =>
    (name, parameters.map fun (parameter, members) => (parameter, find? "value" members))

/-- The instruments of a listing with the names of their parameters. -/
def names {α : Type} (listing : List (String × List (String × α))) : List (String × List String) :=
  listing.map fun (name, fields) => (name, fields.map Prod.fst)

/-- There is a negative zero within a recorded value, at any depth. -/
def HoldsNegativeZero (s : Snapshot) : Prop :=
  ∃ entry ∈ s.recorded, ∃ field ∈ entry.2, ∃ v ∈ field.2, v.HoldsNegativeZero

/-! ## Objects that compare equal -/

section Members
variable {as bs : Json.Members}

/-- Equal objects have equal values at every key, or none. -/
theorem find?_of_sameMembers (h : Json.Value.sameMembers as bs = true) (key : String) :
    find? key as = none ∧ find? key bs = none ∨
      ∃ v w, find? key as = some v ∧ find? key bs = some w ∧ v.same w = true := by
  induction as generalizing bs with
  | nil =>
    cases bs with
    | nil => exact .inl ⟨rfl, rfl⟩
    | cons other bs => cases h
  | cons member as ih =>
    cases bs with
    | nil => cases h
    | cons other bs =>
      obtain ⟨hfirst, hothers⟩ := Bool.and_eq_true_iff.1 h
      obtain ⟨hkey, hvalue⟩ := Bool.and_eq_true_iff.1 hfirst
      rw [Keyed.find?_cons, Keyed.find?_cons, ← beq_iff_eq.1 hkey]
      split
      · exact .inr ⟨_, _, rfl, rfl, hvalue⟩
      · exact ih hothers

theorem valueText_eq_iff_of_sameMembers (h : Json.Value.sameMembers as bs = true) :
    valueText as = valueText bs ↔ find? "value" as = find? "value" bs := by
  unfold valueText
  rcases find?_of_sameMembers h "value" with ⟨ha, hb⟩ | ⟨v, w, ha, hb, hsame⟩
  · rw [ha, hb]
    exact iff_of_true rfl rfl
  · rw [ha, hb, Option.some_inj]
    exact Json.Value.stored_eq_iff_of_same hsame

/-- Without negative zeros, equal objects have the same value. -/
theorem find?_value_eq_of_sameMembers (h : Json.Value.sameMembers as bs = true)
    (ha : ∀ v ∈ find? "value" as, ¬v.HoldsNegativeZero)
    (hb : ∀ v ∈ find? "value" bs, ¬v.HoldsNegativeZero) :
    find? "value" as = find? "value" bs := by
  rcases find?_of_sameMembers h "value" with ⟨hnone, hnone'⟩ | ⟨v, w, hv, hw, hsame⟩
  · rw [hnone, hnone']
  · rw [hv, hw, Json.Value.eq_of_same hsame (ha v hv) (hb w hw)]

end Members

/-! ## Place by place -/

/-- The same name, and under it equal objects. -/
def SameField (a b : String × Json.Members) : Prop :=
  a.1 = b.1 ∧ Json.Value.sameMembers a.2 b.2 = true

/-- The same name, and under it the same parameters with equal objects. -/
def SameEntry (a b : String × Parameters) : Prop := a.1 = b.1 ∧ List.Forall₂ SameField a.2 b.2

theorem forall₂_of_sameParameters {as bs : Parameters} (h : sameParameters as bs = true) :
    List.Forall₂ SameField as bs := by
  induction as generalizing bs with
  | nil =>
    cases bs with
    | nil => exact .nil
    | cons other bs => cases h
  | cons field as ih =>
    cases bs with
    | nil => cases h
    | cons other bs =>
      obtain ⟨hfirst, hothers⟩ := Bool.and_eq_true_iff.1 h
      obtain ⟨hname, hmembers⟩ := Bool.and_eq_true_iff.1 hfirst
      exact .cons ⟨beq_iff_eq.1 hname, hmembers⟩ (ih hothers)

theorem forall₂_of_same {s t : Snapshot} (h : s.same t = true) :
    List.Forall₂ SameEntry s.instruments t.instruments := by
  unfold same at h
  generalize s.instruments = as, t.instruments = bs at h
  induction as generalizing bs with
  | nil =>
    cases bs with
    | nil => exact .nil
    | cons other bs => cases h
  | cons entry as ih =>
    cases bs with
    | nil => cases h
    | cons other bs =>
      obtain ⟨hfirst, hothers⟩ := Bool.and_eq_true_iff.1 h
      obtain ⟨hname, hparameters⟩ := Bool.and_eq_true_iff.1 hfirst
      exact .cons ⟨beq_iff_eq.1 hname, forall₂_of_sameParameters hparameters⟩ (ih _ hothers)

section Forall₂
variable {α β γ : Type} {r : α → α → Prop} {as bs : List α}

theorem map_eq_of_forall₂ {f : α → β} (h : List.Forall₂ r as bs)
    (hf : ∀ a ∈ as, ∀ b ∈ bs, r a b → f a = f b) : as.map f = bs.map f := by
  induction h with
  | nil => rfl
  | @cons a b as bs hab _ ih =>
    have hfirst : f a = f b := hf a (List.mem_cons_self ..) b (List.mem_cons_self ..) hab
    rw [List.map_cons, List.map_cons, hfirst, ih fun a ha b hb =>
      hf a (List.mem_cons_of_mem _ ha) b (List.mem_cons_of_mem _ hb)]

theorem map_eq_iff_of_forall₂ {f : α → β} {g : α → γ} (h : List.Forall₂ r as bs)
    (hfg : ∀ a b, r a b → (f a = f b ↔ g a = g b)) :
    as.map f = bs.map f ↔ as.map g = bs.map g := by
  induction h with
  | nil => exact iff_of_true rfl rfl
  | cons hab _ ih =>
    rw [List.map_cons, List.map_cons, List.map_cons, List.map_cons, List.cons.injEq,
      List.cons.injEq, hfg _ _ hab, ih]

end Forall₂

/-! ## Listings -/

theorem names_values (s : Snapshot) :
    names s.values = s.instruments.map fun entry => (entry.1, entry.2.map Prod.fst) := by
  simp [names, values, Function.comp_def]

/-- Snapshots that compare equal list the same parameters, and the same texts just if they have
recorded the same values. If neither has recorded a negative zero, the texts are the same. -/
theorem values_of_same {s t : Snapshot} (h : s.same t = true) :
    names s.values = names t.values ∧ (s.values = t.values ↔ s.recorded = t.recorded) ∧
      (¬s.HoldsNegativeZero → ¬t.HoldsNegativeZero → s.values = t.values) := by
  have hentries : List.Forall₂ SameEntry s.instruments t.instruments := forall₂_of_same h
  have hiff : s.values = t.values ↔ s.recorded = t.recorded := by
    refine map_eq_iff_of_forall₂ hentries fun a b ⟨hname, hfields⟩ => ?_
    -- a text is listed behind a name, and the names agree
    have htexts := map_eq_iff_of_forall₂
      (f := fun field : String × Json.Members => (field.1, valueText field.2))
      (g := fun field => (field.1, find? "value" field.2)) hfields
      fun c d ⟨hparameter, hmembers⟩ => by
        simp only [Prod.mk.injEq, hparameter, true_and]
        exact valueText_eq_iff_of_sameMembers hmembers
    simp only [Prod.mk.injEq, hname, true_and]
    exact htexts
  refine ⟨?_, hiff, fun hs ht => hiff.2 ?_⟩
  · rw [names_values, names_values]
    refine map_eq_of_forall₂ hentries fun a _ b _ ⟨hname, hfields⟩ => ?_
    rw [hname, map_eq_of_forall₂ hfields fun c _ d _ hfield => hfield.1]
  · refine map_eq_of_forall₂ hentries fun a ha b hb ⟨hname, hfields⟩ => ?_
    refine Prod.ext hname (map_eq_of_forall₂ hfields fun c hc d hd ⟨hparameter, hmembers⟩ => ?_)
    refine Prod.ext hparameter (find?_value_eq_of_sameMembers hmembers ?_ ?_)
    · exact fun v hv hzero => hs ⟨_, List.mem_map_of_mem ha, _, List.mem_map_of_mem hc, v, hv, hzero⟩
    · exact fun v hv hzero => ht ⟨_, List.mem_map_of_mem hb, _, List.mem_map_of_mem hd, v, hv, hzero⟩

def zeroValue (negative : Bool) : Json.Value := .number (.double (.zero negative))

/-- A parameter whose offset, which is not listed, is a zero with or without a sign. -/
def offsetBy (negative : Bool) : Snapshot :=
  ofInstruments
    [("yoko", [("voltage", [("value", zeroValue false), ("offset", zeroValue negative)])])]

theorem values_of_same_offsetBy :
    (offsetBy true).same (offsetBy false) = true ∧
      (offsetBy true).recorded = (offsetBy false).recorded ∧
      (offsetBy true).values = (offsetBy false).values ∧
      (offsetBy true).values = [("yoko", [("voltage", "0.0")])] := by
  have hsame : (offsetBy true).same (offsetBy false) = true := by decide
  have hrecorded : (offsetBy true).recorded = (offsetBy false).recorded := rfl
  exact ⟨hsame, hrecorded, (values_of_same hsame).2.1.2 hrecorded, by decide⟩

/-- Two zeros compare equal and are listed with and without a sign. -/
theorem exists_same_values_ne :
    ∃ s t : Snapshot, s = recordAll {} [⟨"yoko", "voltage", some (zeroValue true)⟩] ∧
      t = recordAll {} [⟨"yoko", "voltage", some (zeroValue false)⟩] ∧ s.same t = true ∧
      s.values = [("yoko", [("voltage", "-0.0")])] ∧
      t.values = [("yoko", [("voltage", "0.0")])] ∧ s.values ≠ t.values :=
  ⟨_, _, rfl, rfl, by decide, by decide, by decide, by decide⟩

end ArrayStore.Snapshot
