import ArrayStore.Proofs.DataSet.Linking
import ArrayStore.Proofs.Keyed

/-!
# Data sets assembled in two passes

Stored arrays refer to each other by ids, also to arrays that are stored later. So all arrays are
added first, and their set arrays are linked afterwards.

* `addAll`, `assemble` : the first pass, and both;
* `Assemblable` : ids are distinct, and all that an array refers to is there;
* `IsAssembly` : each array in its place with its ids; `assemble_eq_ok` : both passes give that;
* `described` : an array as it was stored, with the ids of its set arrays and no handles;
* `IsAssembly.described_eq_some_iff` : the arrays described are those that were given;
* `assemble_perm` : so their order does not matter.
-/

namespace ArrayStore.DataSet
variable {s t : DataSet} {pairs : List (DataArray × List String)}

/-! ## Both passes -/

/-- Adds arrays in turn, and gives their handles. -/
def addAll (s : DataSet) : List DataArray → Except AddFault (DataSet × List Handle)
  | [] => .ok (s, [])
  | a :: arrays =>
    match s.add a with
    | .error fault => .error fault
    | .ok t => (t.addAll arrays).map fun added => (added.1, ⟨s.size⟩ :: added.2)

/-- Adds the arrays, then links each of them by the ids that come with it. -/
def assemble (s : DataSet) (pairs : List (DataArray × List String)) :
    Except StoreError DataSet :=
  match s.addAll (pairs.map Prod.fst) with
  | .error fault => .error fault.toError
  | .ok (t, handles) =>
    match t.linkByIds (handles.zip (pairs.map Prod.snd)) with
    | (u, .ok ()) => .ok u
    | (_, .error unresolved) => .error unresolved.toError

/-- Arrays without set arrays and ids of set arrays that belong together. -/
structure Assemblable (pairs : List (DataArray × List String)) : Prop where
  nodup_ids : (pairs.map fun pair => pair.1.id).Nodup
  unlinked : ∀ pair ∈ pairs, pair.1.setArrays = []
  setpoint : ∀ pair ∈ pairs, pair.1.isSetpoint = true → pair.2 = []
  known : ∀ pair ∈ pairs, ∀ id ∈ pair.2, ∃ other ∈ pairs, other.1.id = id

/-- The arrays of the pairs in their places, each linked by its ids. -/
structure IsAssembly (s : DataSet) (pairs : List (DataArray × List String)) : Prop where
  coherent : Coherent s
  size : s.size = pairs.length
  get : ∀ i (hi : i < pairs.length), ∃ a, s.get? ⟨i⟩ = some a ∧ a.linkTo [] = pairs[i].1 ∧
    s.dependencyIds a = pairs[i].2

theorem Assemblable.perm {others : List (DataArray × List String)} (h : Assemblable pairs)
    (hp : pairs.Perm others) : Assemblable others := by
  refine ⟨(hp.map _).nodup_iff.1 h.nodup_ids, fun pair hm => h.unlinked pair (hp.mem_iff.2 hm),
    fun pair hm => h.setpoint pair (hp.mem_iff.2 hm), fun pair hm id hid => ?_⟩
  obtain ⟨other, ho, he⟩ := h.known pair (hp.mem_iff.2 hm) id hid
  exact ⟨other, hp.mem_iff.1 ho, he⟩

/-! ## The first pass -/

/-- Arrays with new and distinct ids are added behind the others, in order. -/
theorem Coherent.addAll (hs : Coherent s) {arrays : List DataArray}
    (hn : (arrays.map DataArray.id).Nodup) (hfresh : ∀ a ∈ arrays, s.handle? a.id = none)
    (hu : ∀ a ∈ arrays, a.setArrays = []) :
    ∃ t, s.addAll arrays = .ok (t, (List.range' s.size arrays.length).map Handle.mk) ∧
      Coherent t ∧ t.arrays = s.arrays ++ arrays := by
  induction arrays generalizing s with
  | nil => exact ⟨s, rfl, hs, (List.append_nil _).symm⟩
  | cons a arrays ih =>
    obtain ⟨hnew, hn⟩ := List.nodup_cons.1 hn
    obtain ⟨hfa, hfresh⟩ := List.forall_mem_cons.1 hfresh
    obtain ⟨hua, hu⟩ := List.forall_mem_cons.1 hu
    have ha : s.Accepts a := ⟨hfa, fun _ => hua, fun k hk => by rw [hua] at hk; cases hk⟩
    have hrest : ∀ b ∈ arrays, (s.pushed a).handle? b.id = none := by
      intro b hb
      have hne : b.id ≠ a.id := fun he => hnew (he ▸ List.mem_map_of_mem hb)
      rw [handle?_pushed, if_neg hne]
      exact hfresh b hb
    obtain ⟨t, ht, hc, harrays⟩ := ih (hs.pushed ha) hn hrest hu
    refine ⟨t, ?_, hc, ?_⟩
    · rw [DataSet.addAll, add_eq_ok_iff.2 ⟨ha, rfl⟩]
      simp only [ht, size_pushed]
      rfl
    · rw [harrays]
      exact List.append_assoc s.arrays [a] arrays

/-! ## The second pass -/

/-- What the second pass is given: the handles of the first pass with the ids. -/
def references (pairs : List (DataArray × List String)) : List (Handle × List String) :=
  ((List.range' 0 pairs.length).map Handle.mk).zip (pairs.map Prod.snd)

theorem mem_references_iff {entry : Handle × List String} :
    entry ∈ references pairs ↔ ∃ i, ∃ hi : i < pairs.length, entry = (⟨i⟩, pairs[i].2) := by
  rw [List.mem_iff_getElem?]
  refine exists_congr fun i => ?_
  rw [references, List.getElem?_zip_eq_some, List.getElem?_map, List.getElem?_map]
  by_cases hi : i < pairs.length
  · rw [List.getElem?_range' hi, List.getElem?_eq_getElem hi, Option.map_some, Option.map_some,
      Nat.one_mul, Nat.zero_add]
    constructor
    · rintro ⟨hh, hids⟩
      exact ⟨hi, Prod.ext (Option.some.inj hh).symm (Option.some.inj hids).symm⟩
    · rintro ⟨_, rfl⟩
      exact ⟨rfl, rfl⟩
  · rw [List.getElem?_eq_none (l := pairs) (Nat.le_of_not_lt hi)]
    constructor
    · rintro ⟨-, hids⟩
      cases hids
    · rintro ⟨hlt, -⟩
      exact absurd hlt hi

theorem nodup_references (pairs : List (DataArray × List String)) :
    ((references pairs).map Prod.fst).Nodup := by
  have hhandles : (references pairs).map Prod.fst = (List.range' 0 pairs.length).map Handle.mk := by
    rw [references, List.map_fst_zip]
    simp
  rw [hhandles]
  exact (List.nodup_range').map fun _ _ he => congrArg Handle.index he

/-- Handles of the first pass differ, so each has its own ids. -/
theorem lookup_references {i : Nat} (hi : i < pairs.length) :
    (references pairs).reverse.lookup ⟨i⟩ = some pairs[i].2 := by
  refine Keyed.lookup_of_mem_of_nodup ?_ ?_
  · rw [List.map_reverse, List.nodup_reverse]
    exact nodup_references pairs
  · rw [List.mem_reverse]
    exact mem_references_iff.2 ⟨i, hi, rfl⟩

section SecondPass
variable (ht : Coherent t) (harrays : t.arrays = pairs.map Prod.fst) (h : Assemblable pairs)
include harrays

theorem get?_of_arrays_eq {i : Nat} (hi : i < pairs.length) : t.get? ⟨i⟩ = some pairs[i].1 := by
  show t.arrays[i]? = _
  rw [harrays, List.getElem?_map, List.getElem?_eq_getElem hi, Option.map_some]

include ht h

theorem isSome_handle?_of_assemblable {pair : DataArray × List String} (hm : pair ∈ pairs)
    {id : String} (hid : id ∈ pair.2) : (t.handle? id).isSome = true := by
  obtain ⟨other, ho, rfl⟩ := h.known pair hm id hid
  obtain ⟨i, hi, rfl⟩ := List.getElem_of_mem ho
  rw [ht.handle?_of_get? (get?_of_arrays_eq harrays hi)]
  rfl

theorem linkByIds_references :
    t.linkByIds (references pairs) = (t.linked (references pairs), .ok ()) := by
  apply linkByIds_of_known
  intro entry he id hid
  obtain ⟨i, hi, rfl⟩ := mem_references_iff.1 he
  exact isSome_handle?_of_assemblable ht harrays h (List.getElem_mem hi) hid

/-- The entries of arrays without set arrays can be left out. -/
theorem linkByIds_filter_references :
    t.linkByIds ((references pairs).filter fun entry => !entry.2.isEmpty) =
      (t.linked (references pairs), .ok ()) := by
  have hunlinked : ∀ entry ∈ references pairs, ∀ a, t.get? entry.1 = some a → a.setArrays = [] := by
    intro entry he a ha
    obtain ⟨i, hi, rfl⟩ := mem_references_iff.1 he
    rw [get?_of_arrays_eq harrays hi] at ha
    cases ha
    exact h.unlinked pairs[i] (List.getElem_mem hi)
  rw [← linked_filter (nodup_references pairs) hunlinked]
  apply linkByIds_of_known
  intro entry he id hid
  obtain ⟨i, hi, rfl⟩ := mem_references_iff.1 (List.mem_of_mem_filter he)
  exact isSome_handle?_of_assemblable ht harrays h (List.getElem_mem hi) hid

theorem coherent_linked_references : Coherent (t.linked (references pairs)) := by
  have hsetpoint : ∀ entry ∈ references pairs, ∀ a, t.get? entry.1 = some a →
      a.isSetpoint = true → entry.2 = [] := by
    intro entry he a ha hset
    obtain ⟨i, hi, rfl⟩ := mem_references_iff.1 he
    rw [get?_of_arrays_eq harrays hi] at ha
    cases ha
    exact h.setpoint pairs[i] (List.getElem_mem hi) hset
  have hc := ht.linkByIds hsetpoint
  rwa [linkByIds_references ht harrays h] at hc

/-- Once the arrays are in their places, each is linked by its own ids. -/
theorem isAssembly_linked_references : IsAssembly (t.linked (references pairs)) pairs := by
  have hc := coherent_linked_references ht harrays h
  refine ⟨hc, ?_, fun i hi => ?_⟩
  · rw [size_linked, DataSet.size, harrays, List.length_map]
  · have hm := List.getElem_mem hi
    have hlook : (t.linked (references pairs)).handle? = t.handle? :=
      funext (handle?_linked t (references pairs))
    refine ⟨pairs[i].1.linkTo (pairs[i].2.filterMap t.handle?), ?_, ?_, ?_⟩
    · rw [get?_linked, get?_of_arrays_eq harrays hi, lookup_references hi]
      rfl
    · show { pairs[i].1 with setArrays := [] } = pairs[i].1
      rw [← h.unlinked pairs[i] hm]
    · have hids := hc.ids_filterMap_handle? fun id hid => by
        rw [hlook]
        exact isSome_handle?_of_assemblable ht harrays h hm hid
      rwa [hlook] at hids

end SecondPass

/-! ## The assembled data set -/

/-- The first pass puts the arrays in their places. -/
theorem Assemblable.addAll_eq_ok (h : Assemblable pairs) (location : String) (disk : Disk) :
    ∃ t, addAll { location, disk } (pairs.map Prod.fst) =
        .ok (t, (List.range' 0 pairs.length).map Handle.mk) ∧
      Coherent t ∧ t.arrays = pairs.map Prod.fst := by
  have hn : ((pairs.map Prod.fst).map DataArray.id).Nodup := by
    rw [List.map_map]
    exact h.nodup_ids
  have hu : ∀ a ∈ pairs.map Prod.fst, a.setArrays = [] := by
    intro a ha
    obtain ⟨pair, hm, rfl⟩ := List.mem_map.1 ha
    exact h.unlinked pair hm
  obtain ⟨t, ht, hc, harrays⟩ := (coherent_empty location disk).addAll hn (fun _ _ => rfl) hu
  rw [List.length_map] at ht
  exact ⟨t, ht, hc, harrays⟩

/-- Both passes succeed, and every array is in its place with its ids. -/
theorem assemble_eq_ok (location : String) (disk : Disk) (h : Assemblable pairs) :
    ∃ s, assemble { location, disk } pairs = .ok s ∧ IsAssembly s pairs := by
  obtain ⟨t, ht, hc, harrays⟩ := h.addAll_eq_ok location disk
  refine ⟨t.linked (references pairs), ?_, isAssembly_linked_references hc harrays h⟩
  rw [assemble, ht]
  show (match t.linkByIds (references pairs) with
    | (u, .ok ()) => Except.ok u
    | (_, .error unresolved) => .error unresolved.toError) = _
  rw [linkByIds_references hc harrays h]

theorem IsAssembly.map_id (h : IsAssembly s pairs) :
    s.arrays.map DataArray.id = pairs.map fun pair => pair.1.id := by
  refine List.ext_getElem? fun i => ?_
  rw [List.getElem?_map, List.getElem?_map]
  rcases Nat.lt_or_ge i pairs.length with hi | hi
  · obtain ⟨a, ha, harray, -⟩ := h.get i hi
    replace ha : s.arrays[i]? = some a := ha
    rw [ha, List.getElem?_eq_getElem hi, Option.map_some, Option.map_some, ← harray]
    rfl
  · have hsize : s.arrays.length = pairs.length := h.size
    rw [List.getElem?_eq_none hi, List.getElem?_eq_none (hsize ▸ hi)]
    rfl

/-- The array with an id as it was stored: with the ids of its set arrays, and no handles. -/
def described (s : DataSet) (id : String) : Option (DataArray × List String) :=
  (s.byId? id).map fun a => (a.linkTo [], s.dependencyIds a)

theorem IsAssembly.described_eq_some_iff (h : IsAssembly s pairs) {id : String}
    {pair : DataArray × List String} :
    s.described id = some pair ↔ pair ∈ pairs ∧ pair.1.id = id := by
  unfold described byId?
  rw [Option.map_eq_some_iff]
  constructor
  · rintro ⟨a, ha, rfl⟩
    obtain ⟨⟨i⟩, hk, hak⟩ := Option.bind_eq_some_iff.1 ha
    obtain ⟨b, hb, rfl⟩ := h.coherent.get?_of_handle? hk
    have hi : i < pairs.length := h.size ▸ h.coherent.lt_of_handle? hk
    obtain ⟨c, hc, harray, hids⟩ := h.get i hi
    rw [hb] at hak hc
    cases hak
    cases hc
    rw [harray, hids]
    refine ⟨List.getElem_mem hi, ?_⟩
    rw [← harray]
    rfl
  · rintro ⟨hm, rfl⟩
    obtain ⟨i, hi, rfl⟩ := List.getElem_of_mem hm
    obtain ⟨a, ha, harray, hids⟩ := h.get i hi
    have hid : pairs[i].1.id = a.id := by
      rw [← harray]
      rfl
    refine ⟨a, ?_, Prod.ext harray hids⟩
    rw [hid, h.coherent.handle?_of_get? ha, Option.bind_some, ha]

/-- Pairs that belong together are assembled in whatever order they come: each array is found under
its id with exactly the ids that came with it, and two orders give data sets that describe the same
arrays. -/
theorem assemble_perm (location : String) (disk : Disk)
    {pairs others : List (DataArray × List String)} (h : Assemblable pairs)
    (hp : pairs.Perm others) :
    ∃ s t, assemble { location, disk } pairs = .ok s ∧ assemble { location, disk } others = .ok t ∧
      s.size = pairs.length ∧ (∀ pair ∈ pairs, s.described pair.1.id = some pair) ∧
      ∀ id, s.described id = t.described id := by
  obtain ⟨s, hs, hsa⟩ := assemble_eq_ok location disk h
  obtain ⟨t, ht, hta⟩ := assemble_eq_ok location disk (h.perm hp)
  refine ⟨s, t, hs, ht, hsa.size, fun pair hm => ?_, fun id => ?_⟩
  · exact hsa.described_eq_some_iff.2 ⟨hm, rfl⟩
  · refine Option.ext fun pair => ?_
    rw [hsa.described_eq_some_iff, hta.described_eq_some_iff, hp.mem_iff]

/-- An array that refers to itself and, twice, to one that comes later. -/
def sweptPairs : List (DataArray × List String) :=
  [({ id := "y", samples := [Double.nan] }, ["x", "y", "x"]),
    ({ id := "x", isSetpoint := true }, [])]

theorem assemble_perm_sweptPairs :
    Assemblable sweptPairs ∧ sweptPairs.Perm sweptPairs.reverse ∧
      ∃ s t, assemble {} sweptPairs = .ok s ∧ assemble {} sweptPairs.reverse = .ok t ∧
        s.size = sweptPairs.length ∧ (∀ pair ∈ sweptPairs, s.described pair.1.id = some pair) ∧
        ∀ id, s.described id = t.described id := by
  have h : Assemblable sweptPairs := ⟨by decide, by decide, by decide, by decide⟩
  have hp : sweptPairs.Perm sweptPairs.reverse := (List.reverse_perm sweptPairs).symm
  exact ⟨h, hp, assemble_perm "" {} h hp⟩

end ArrayStore.DataSet
