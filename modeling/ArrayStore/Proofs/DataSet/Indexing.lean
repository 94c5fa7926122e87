import ArrayStore.Proofs.DataSet.Operations
import Mathlib.Data.List.Nodup

/-!
# The index names the positions of the arrays

* `Indexed` : an id is looked up exactly where the array with this id is;
* `Indexed.nodup_ids`, `Indexed.mem_ids_iff` : so ids are distinct, and the index knows all of them;
* `Indexed.pushed`, `Indexed.of_changed` : adding keeps it, and so does every change of arrays in
  their places that keeps their ids;
* `Indexed.run` : so it holds in every state of a run, whatever its steps.
-/

namespace ArrayStore.DataSet
variable {arithmetic : Arithmetic} {s t : DataSet}

/-- An id is looked up exactly where its array is. -/
def Indexed (s : DataSet) : Prop :=
  ∀ id h, s.handle? id = some h ↔ (s.get? h).map DataArray.id = some id

/-! ## What follows -/

theorem Indexed.handle?_of_get? (hs : Indexed s) {h : Handle} {a : DataArray}
    (ha : s.get? h = some a) : s.handle? a.id = some h := by
  apply (hs a.id h).2
  rw [ha, Option.map_some]

theorem Indexed.get?_of_handle? (hs : Indexed s) {id : String} {h : Handle}
    (hh : s.handle? id = some h) : ∃ a, s.get? h = some a ∧ a.id = id :=
  Option.map_eq_some_iff.1 ((hs id h).1 hh)

theorem Indexed.lt_of_handle? (hs : Indexed s) {id : String} {h : Handle}
    (hh : s.handle? id = some h) : h.index < s.size := by
  obtain ⟨a, ha, -⟩ := hs.get?_of_handle? hh
  exact lt_of_get? ha

theorem Indexed.lt_of_handlesOf (hs : Indexed s) {ids : List String} {handles : List Handle}
    (h : s.handlesOf ids = .ok handles) : ∀ k ∈ handles, k.index < s.size := by
  intro k hk
  have hmem : some k ∈ ids.map s.handle? := handlesOf_eq_ok h ▸ List.mem_map_of_mem hk
  obtain ⟨id, -, hid⟩ := List.mem_map.1 hmem
  exact hs.lt_of_handle? hid

/-- Two arrays with one id would have one handle. -/
theorem Indexed.nodup_ids (hs : Indexed s) : (s.arrays.map DataArray.id).Nodup := by
  rw [List.nodup_iff_getElem?_ne_getElem?]
  intro i j hij hj heq
  rw [List.length_map] at hj
  -- the id of the later array names both positions
  have hid := List.getElem?_eq_getElem hj
  have hlater := hs.handle?_of_get? (h := ⟨j⟩) hid
  rw [List.getElem?_map, List.getElem?_map, hid, Option.map_some] at heq
  have hearlier := (hs _ ⟨i⟩).2 heq
  rw [hlater] at hearlier
  cases hearlier
  exact Nat.lt_irrefl _ hij

theorem Indexed.mem_ids_iff (hs : Indexed s) {id : String} :
    id ∈ s.arrays.map DataArray.id ↔ (s.handle? id).isSome = true := by
  rw [List.mem_map, Option.isSome_iff_exists]
  constructor
  · rintro ⟨a, ha, rfl⟩
    obtain ⟨h, hh⟩ := mem_arrays_iff.1 ha
    exact ⟨h, hs.handle?_of_get? hh⟩
  · rintro ⟨h, hh⟩
    obtain ⟨a, ha, hid⟩ := hs.get?_of_handle? hh
    exact ⟨a, mem_arrays_iff.2 ⟨h, ha⟩, hid⟩

/-! ## What keeps it -/

theorem indexed_empty (location : String) (disk : Disk) : Indexed { location, disk } := by
  intro id h
  constructor <;> intro hc <;> cases hc

theorem Indexed.pushed (hs : Indexed s) {a : DataArray} (hfresh : s.handle? a.id = none) :
    Indexed (s.pushed a) := by
  intro id h
  rw [handle?_pushed, get?_pushed]
  by_cases hid : id = a.id
  · by_cases hh : h.index = s.size
    · rw [if_pos hid, if_pos hh, hid, ← hh]
      exact ⟨fun _ => rfl, fun _ => rfl⟩
    · rw [if_pos hid, if_neg hh, ← hs, hid, hfresh]
      refine ⟨fun hc => absurd ?_ hh, fun hc => by cases hc⟩
      rw [← Option.some.inj hc]
  · by_cases hh : h.index = s.size
    · rw [if_neg hid, if_pos hh]
      refine ⟨fun hc => ?_, fun hc => absurd (Option.some.inj hc).symm hid⟩
      exact absurd hh (Nat.ne_of_lt (hs.lt_of_handle? hc))
    · rw [if_neg hid, if_neg hh]
      exact hs id h

/-- Arrays may change in their places, as long as their ids stay. -/
theorem Indexed.of_changed (hs : Indexed s) (hindex : t.index = s.index)
    (hid : ∀ h, (t.get? h).map DataArray.id = (s.get? h).map DataArray.id) : Indexed t := by
  intro id h
  have hlook : t.handle? id = s.handle? id := by
    unfold handle?
    rw [hindex]
  rw [hlook, hid]
  exact hs id h

theorem map_id_get?_put {h : Handle} {a b : DataArray} {w : DataArray.Write}
    (ha : s.get? h = some a) (hb : a.write arithmetic w = .ok b) (k : Handle) :
    ((s.put h b).get? k).map DataArray.id = (s.get? k).map DataArray.id := by
  obtain ⟨samples, rfl⟩ := DataArray.write_eq_ok hb
  rw [get?_put ha]
  split
  · next hk => rw [hk, ha]; rfl
  · rfl

theorem map_id_get?_link (s : DataSet) (h k : Handle) (setArrays : List Handle) :
    ((s.link h setArrays).get? k).map DataArray.id = (s.get? k).map DataArray.id := by
  rw [get?_link, Option.map_map]
  congr 1
  funext a
  rw [Function.comp_apply]
  split <;> rfl

theorem Indexed.put (hs : Indexed s) {h : Handle} {a b : DataArray} {w : DataArray.Write}
    (ha : s.get? h = some a) (hb : a.write arithmetic w = .ok b) : Indexed (s.put h b) :=
  hs.of_changed rfl (map_id_get?_put ha hb)

theorem Indexed.link (hs : Indexed s) {h : Handle} {setArrays : List Handle} :
    Indexed (s.link h setArrays) :=
  hs.of_changed rfl fun k => map_id_get?_link s h k setArrays

theorem Indexed.linkByIds {pending : List (Handle × List String)} (hs : Indexed s) :
    Indexed (s.linkByIds pending).1 := by
  induction pending generalizing s with
  | nil => exact hs
  | cons entry pending ih =>
    rw [DataSet.linkByIds]
    split
    · exact ih hs.link
    · exact hs

theorem Indexed.step (hs : Indexed s) (step : Step) : Indexed (s.step arithmetic step).1 := by
  rcases s.step_cases arithmetic step with h | ⟨a, -, ha, h⟩ | ⟨-, w, k, a, b, -, -, ha, hb, h⟩ |
    ⟨pending, -, h⟩
  · rw [h]
    exact hs
  · rw [h]
    exact hs.pushed ha.fresh
  · rw [h]
    exact hs.put ha hb
  · rw [h]
    exact hs.linkByIds

theorem Indexed.run (hs : Indexed s) (steps : List Step) :
    Indexed (s.run arithmetic steps).1 := by
  induction steps generalizing s with
  | nil => exact hs
  | cons step steps ih => exact ih (hs.step step)

end ArrayStore.DataSet
