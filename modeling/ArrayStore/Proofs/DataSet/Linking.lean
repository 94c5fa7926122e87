import ArrayStore.Proofs.DataSet.Coherence

/-!
# Linking by ids

What the second pass makes of the arrays when every id is in the data set.

* `linked` : the second pass without its failures; `linkByIds_append_of_known`;
* `get?_linked` : the last entry for a handle stands; `linked_eq` : nothing but arrays changes;
* `linked_filter` : entries without ids can be left out;
* `Coherent.ids_filterMap_handle?` : the ids of the handles of ids are the ids.
-/

namespace ArrayStore.DataSet
variable {s : DataSet}

/-- The data set with all entries linked, ids in no array left out. -/
def linked (s : DataSet) : List (Handle × List String) → DataSet
  | [] => s
  | (h, ids) :: pending => (s.link h (ids.filterMap s.handle?)).linked pending

/-- Entries of which every id is in the data set are linked, and the others come after them. -/
theorem linkByIds_append_of_known {before : List (Handle × List String)}
    (h : ∀ entry ∈ before, ∀ id ∈ entry.2, (s.handle? id).isSome = true)
    (rest : List (Handle × List String)) :
    s.linkByIds (before ++ rest) = (s.linked before).linkByIds rest := by
  induction before generalizing s with
  | nil => rfl
  | cons entry before ih =>
    obtain ⟨k, ids⟩ := entry
    obtain ⟨hentry, h⟩ := List.forall_mem_cons.1 h
    rw [List.cons_append, linkByIds, handlesOf_of_known hentry]
    exact ih h

/-- When every id is in the data set, nothing fails. -/
theorem linkByIds_of_known {pending : List (Handle × List String)}
    (h : ∀ entry ∈ pending, ∀ id ∈ entry.2, (s.handle? id).isSome = true) :
    s.linkByIds pending = (s.linked pending, .ok ()) := by
  have happend := linkByIds_append_of_known h []
  rwa [List.append_nil] at happend

theorem handle?_linked (s : DataSet) (pending : List (Handle × List String)) (id : String) :
    (s.linked pending).handle? id = s.handle? id := by
  induction pending generalizing s with
  | nil => rfl
  | cons entry pending ih => exact ih _

theorem size_linked (s : DataSet) (pending : List (Handle × List String)) :
    (s.linked pending).size = s.size := by
  induction pending generalizing s with
  | nil => rfl
  | cons entry pending ih =>
    rw [linked, ih]
    exact size_link s _ _

/-- The set arrays of an array are those of the last entry for its handle. -/
theorem get?_linked (s : DataSet) (pending : List (Handle × List String)) (k : Handle) :
    (s.linked pending).get? k =
      (s.get? k).map fun a =>
        match pending.reverse.lookup k with
        | none => a
        | some ids => a.linkTo (ids.filterMap s.handle?) := by
  induction pending generalizing s with
  | nil => exact (Option.map_id' (x := s.get? k)).symm
  | cons entry pending ih =>
    obtain ⟨h, ids⟩ := entry
    rw [linked, ih, get?_link, Option.map_map, List.reverse_cons, List.lookup_append]
    congr 1
    funext a
    rw [Function.comp_apply]
    cases pending.reverse.lookup k with
    | some later =>
      -- a later entry for the handle overwrites this one
      by_cases hk : k = h
      · rw [if_pos hk]
        rfl
      · rw [if_neg hk]
        rfl
    | none =>
      rw [Option.none_or, List.lookup_cons]
      by_cases hk : k = h
      · rw [if_pos hk, hk, beq_self_eq_true]
      · rw [if_neg hk, beq_false_of_ne hk]
        rfl

/-- Linking leaves all but the arrays as it is. -/
theorem linked_eq (s : DataSet) (pending : List (Handle × List String)) :
    s.linked pending = { s with arrays := (s.linked pending).arrays } := by
  induction pending generalizing s with
  | nil => rfl
  | cons entry pending ih => exact ih _

/-- Data sets that differ at most in their arrays, and have the same arrays, are the same. -/
theorem eq_of_get?_eq {t : DataSet} (h : t = { s with arrays := t.arrays })
    (hget : ∀ k, t.get? k = s.get? k) : t = s := by
  have harrays : t.arrays = s.arrays := List.ext_getElem? fun i => hget ⟨i⟩
  rw [h, harrays]

/-- An array without set arrays stays as it is when it is linked to none. -/
theorem link_nil {k : Handle} (h : ∀ a, s.get? k = some a → a.setArrays = []) :
    s.link k [] = s := by
  refine eq_of_get?_eq rfl fun k' => ?_
  rw [get?_link]
  cases ha : s.get? k' with
  | none => rfl
  | some a =>
    rw [Option.map_some]
    split
    · next hk =>
      show some { a with setArrays := [] } = some a
      rw [← h a (hk ▸ ha)]
    · rfl

/-- Entries without ids can be left out if their arrays have no set arrays. -/
theorem linked_filter {pending : List (Handle × List String)} (hn : (pending.map Prod.fst).Nodup)
    (h : ∀ entry ∈ pending, ∀ a, s.get? entry.1 = some a → a.setArrays = []) :
    s.linked (pending.filter fun entry => !entry.2.isEmpty) = s.linked pending := by
  induction pending generalizing s with
  | nil => rfl
  | cons entry pending ih =>
    obtain ⟨hnew, hrest⟩ := List.nodup_cons.1 hn
    obtain ⟨hk, hunlinked⟩ := List.forall_mem_cons.1 h
    obtain ⟨k, ids⟩ := entry
    cases ids with
    | nil =>
      rw [linked, List.filterMap_nil, link_nil hk]
      exact ih hrest hunlinked
    | cons id ids =>
      refine ih hrest fun other ho a ha => ?_
      have hne : other.1 ≠ k := fun he => hnew (List.mem_map.2 ⟨other, ho, he⟩)
      rw [get?_link] at ha
      simp only [if_neg hne, Option.map_id'] at ha
      exact hunlinked other ho a ha

/-- Ids that are all in the data set come back, in order and with their repetitions. -/
theorem Coherent.ids_filterMap_handle? (hs : Coherent s) {ids : List String}
    (h : ∀ id ∈ ids, (s.handle? id).isSome = true) :
    ((ids.filterMap s.handle?).filterMap s.get?).map DataArray.id = ids := by
  induction ids with
  | nil => rfl
  | cons id ids ih =>
    obtain ⟨hid, hids⟩ := List.forall_mem_cons.1 h
    obtain ⟨k, hk⟩ := Option.isSome_iff_exists.1 hid
    obtain ⟨a, ha, rfl⟩ := hs.get?_of_handle? hk
    rw [List.filterMap_cons_some hk, List.filterMap_cons_some ha, List.map_cons, ih hids]

end ArrayStore.DataSet
