import ArrayStore.Json.Node
import ArrayStore.Proofs.Keyed

/-!
# Values that documents hold

* `Value.parts` : a value and all values within it;
* `Value.WellFormed` : objects are ordered by key, integers have 64 bits, and doubles are finite;
* `wellFormed_array_iff`, `wellFormed_object_iff` : whether a value is well-formed, by its parts;
* `wellFormed_of_value?`, `wellFormed_of_read?` : every value that a text holds is well-formed.
-/

namespace ArrayStore.Json
open Keyed (find? Ordered)

/-! ## Parts -/

mutual

/-- The value and all values within it, at any depth. -/
def Value.parts : Value → List Value
  | .array items => .array items :: Value.partsOfItems items
  | .object members => .object members :: Value.partsOfMembers members
  | .null => [.null]
  | .bool b => [.bool b]
  | .number n => [.number n]
  | .string s => [.string s]

def Value.partsOfItems : List Value → List Value
  | [] => []
  | item :: items => item.parts ++ Value.partsOfItems items

def Value.partsOfMembers : List (String × Value) → List Value
  | [] => []
  | (_, value) :: members => value.parts ++ Value.partsOfMembers members

end

theorem Value.partsOfItems_eq (items : List Value) :
    Value.partsOfItems items = items.flatMap Value.parts := by
  induction items with
  | nil => rw [Value.partsOfItems, List.flatMap_nil]
  | cons item items ih => rw [Value.partsOfItems, List.flatMap_cons, ih]

theorem Value.partsOfMembers_eq (members : List (String × Value)) :
    Value.partsOfMembers members = members.flatMap fun member => member.2.parts := by
  induction members with
  | nil => rw [Value.partsOfMembers, List.flatMap_nil]
  | cons member members ih =>
    obtain ⟨key, value⟩ := member
    rw [Value.partsOfMembers, List.flatMap_cons, ih]

/-- What holds of all parts of an array holds of the array and of all parts of its items. -/
theorem Value.forall_parts_array {p : Value → Prop} {items : List Value} :
    (∀ part ∈ (Value.array items).parts, p part) ↔
      p (.array items) ∧ ∀ item ∈ items, ∀ part ∈ item.parts, p part := by
  rw [Value.parts, List.forall_mem_cons, Value.partsOfItems_eq, List.forall_mem_flatMap]

theorem Value.forall_parts_object {p : Value → Prop} {members : Members} :
    (∀ part ∈ (Value.object members).parts, p part) ↔
      p (.object members) ∧ ∀ member ∈ members, ∀ part ∈ member.2.parts, p part := by
  rw [Value.parts, List.forall_mem_cons, Value.partsOfMembers_eq, List.forall_mem_flatMap]

theorem Value.parts_subset_array {items : List Value} {item : Value} (h : item ∈ items) :
    item.parts ⊆ (Value.array items).parts := fun _ hpart =>
  (Value.forall_parts_array (p := (· ∈ (Value.array items).parts)).1 fun _ => id).2 item h _ hpart

theorem Value.parts_subset_object {members : Members} {member : String × Value}
    (h : member ∈ members) : member.2.parts ⊆ (Value.object members).parts := fun _ hpart =>
  (Value.forall_parts_object (p := (· ∈ (Value.object members).parts)).1 fun _ => id).2 member h _
    hpart

/-! ## Well-formed values -/

/-- Integers have 64 bits, with or without a sign, and doubles are finite. -/
def Number.Fits : Number → Prop
  | .integer i => -(Word.half : Int) ≤ i ∧ i < Word.limit
  | .double d => d.isFinite = true

/-- The value by itself, apart from the values within it. -/
def Value.Sound : Value → Prop
  | .number n => n.Fits
  | .object members => Ordered members
  | _ => True

/-- Objects are ordered by key, integers have 64 bits, and doubles are finite, at any depth. -/
def Value.WellFormed (v : Value) : Prop := ∀ part ∈ v.parts, part.Sound

instance : DecidablePred Number.Fits
  | .integer _ => inferInstanceAs (Decidable (_ ∧ _))
  | .double _ => inferInstanceAs (Decidable (_ = _))

instance : DecidablePred Value.Sound
  | .number n => inferInstanceAs (Decidable n.Fits)
  | .object members => inferInstanceAs (Decidable (Ordered members))
  | .null | .bool _ | .string _ | .array _ => .isTrue trivial

instance (v : Value) : Decidable v.WellFormed :=
  inferInstanceAs (Decidable (∀ part ∈ v.parts, part.Sound))

theorem Value.wellFormed_array_iff {items : List Value} :
    (Value.array items).WellFormed ↔ ∀ item ∈ items, item.WellFormed :=
  Value.forall_parts_array.trans (and_iff_right trivial)

theorem Value.wellFormed_object_iff {members : Members} :
    (Value.object members).WellFormed ↔
      Ordered members ∧ ∀ member ∈ members, member.2.WellFormed :=
  Value.forall_parts_object

theorem Value.wellFormed_number_iff {n : Number} : (Value.number n).WellFormed ↔ n.Fits := by
  unfold Value.WellFormed
  rw [Value.parts, List.forall_mem_singleton]
  rfl

theorem Value.WellFormed.ordered {members : Members} (h : (Value.object members).WellFormed) :
    Ordered members :=
  (Value.wellFormed_object_iff.1 h).1

/-- What is found in a well-formed value is well-formed. -/
theorem Value.WellFormed.of_get? {v value : Value} {key : String} (h : v.WellFormed)
    (hv : v.get? key = some value) : value.WellFormed := by
  cases v with
  | object members =>
    exact (Value.wellFormed_object_iff.1 h).2 _ (Keyed.mem_of_lookup_eq_some hv)
  | _ => cases hv

/-! ## What is read -/

theorem fits_of_number? {n : Numeral} {number : Number} (h : n.number? = some number) :
    number.Fits := by
  have hdouble : ∀ d : Double, (if d.isFinite then some (Number.double d) else none) = some number →
      number.Fits := by
    intro d hd
    split at hd
    · next hfinite =>
      cases hd
      exact hfinite
    · cases hd
  unfold Numeral.number? at h
  split_ifs at h with hi hp hn
  · rw [Bool.and_eq_true, decide_eq_true_eq] at hp
    cases h
    exact ⟨by omega, Int.ofNat_lt.2 hp.2⟩
  · rw [Bool.and_eq_true, decide_eq_true_eq] at hn
    cases h
    have hlimit : (0 : Int) < Word.limit := by decide
    exact ⟨by omega, by omega⟩
  · exact hdouble _ h
  · exact hdouble _ h

mutual

theorem Node.wellFormed_of_value? : ∀ {node : Node} {v : Value}, node.value? = some v →
    v.WellFormed
  | .null, v, h => by
    cases h
    exact List.forall_mem_singleton.2 trivial
  | .bool b, v, h => by
    cases h
    exact List.forall_mem_singleton.2 trivial
  | .number n, v, h => by
    obtain ⟨number, hn, rfl⟩ := Option.map_eq_some_iff.1 h
    exact Value.wellFormed_number_iff.2 (fits_of_number? hn)
  | .string text, v, h => by
    obtain ⟨s, -, rfl⟩ := Option.map_eq_some_iff.1 h
    exact List.forall_mem_singleton.2 trivial
  | .array items, v, h => by
    obtain ⟨values, hvalues, rfl⟩ := Option.map_eq_some_iff.1 h
    exact Value.wellFormed_array_iff.2 (Node.wellFormed_of_values? hvalues)
  | .object members, v, h => by
    obtain ⟨pairs, hpairs, rfl⟩ := Option.map_eq_some_iff.1 h
    refine Value.wellFormed_object_iff.2 ⟨Keyed.ordered_ofList pairs, fun member hm => ?_⟩
    exact Node.wellFormed_of_members? hpairs member (Keyed.mem_of_mem_ofList hm)

theorem Node.wellFormed_of_values? : ∀ {items : List Node} {values : List Value},
    Node.values? items = some values → ∀ value ∈ values, value.WellFormed
  | [], values, h => by
    cases h
    exact List.forall_mem_nil _
  | item :: items, values, h => by
    obtain ⟨first, hfirst, h⟩ := Option.bind_eq_some_iff.1 h
    obtain ⟨others, hothers, h⟩ := Option.bind_eq_some_iff.1 h
    cases h
    exact List.forall_mem_cons.2
      ⟨Node.wellFormed_of_value? hfirst, Node.wellFormed_of_values? hothers⟩

theorem Node.wellFormed_of_members? : ∀ {members : List (Option String × Node)} {pairs : Members},
    Node.members? members = some pairs → ∀ pair ∈ pairs, pair.2.WellFormed
  | [], pairs, h => by
    cases h
    exact List.forall_mem_nil _
  | (key, value) :: members, pairs, h => by
    obtain ⟨key, -, h⟩ := Option.bind_eq_some_iff.1 h
    obtain ⟨first, hfirst, h⟩ := Option.bind_eq_some_iff.1 h
    obtain ⟨others, hothers, h⟩ := Option.bind_eq_some_iff.1 h
    cases h
    exact List.forall_mem_cons.2
      ⟨Node.wellFormed_of_value? hfirst, Node.wellFormed_of_members? hothers⟩

end

theorem Value.wellFormed_of_read? {text : String} {v : Value} (h : Value.read? text = some v) :
    v.WellFormed := by
  obtain ⟨node, -, hv⟩ := Option.bind_eq_some_iff.1 h
  exact Node.wellFormed_of_value? hv

end ArrayStore.Json
