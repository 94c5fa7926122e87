import ArrayStore.Proofs.DataSet.Resolution

/-!
# Links by ids and links by handles are the same

* `Live` : every set array is in the data set; `Live.run` : so it is in every state of a run;
* `filterMap_handle?_ids` : the handles of the ids of handles are the handles;
* `idsBehind` : the ids of the set arrays of the array behind a handle;
* `step_linkByIds_idsBehind` : linking arrays by the ids that they have changes nothing.
-/

namespace ArrayStore.DataSet
variable {arithmetic : Arithmetic} {s : DataSet}

/-- Every set array is in the data set, that of an independent variable, too. -/
def Live (s : DataSet) : Prop :=
  Every (fun bound _ a => ∀ k ∈ a.setArrays, k.index < bound) s

theorem live_empty (location : String) (disk : Disk) : Live { location, disk } :=
  fun _ _ ha => by cases ha

theorem Live.pushed (hs : Live s) {a : DataArray} (ha : s.Accepts a) : Live (s.pushed a) :=
  Every.pushed hs (fun _ _ hb k hk => Nat.lt_succ_of_lt (hb k hk))
    fun k hk => Nat.lt_succ_of_lt (ha.known k hk)

theorem Live.put (hs : Live s) {h : Handle} {a b : DataArray} {w : DataArray.Write}
    (ha : s.get? h = some a) (hb : a.write arithmetic w = .ok b) : Live (s.put h b) := by
  refine Every.put hs ha ?_
  obtain ⟨samples, rfl⟩ := DataArray.write_eq_ok hb
  exact hs h a ha

/-- Only handles of arrays are linked, also before the second pass stops. -/
theorem Live.linkByIds (hs : Live s) (hi : Indexed s) (pending : List (Handle × List String)) :
    Live (s.linkByIds pending).1 := by
  induction pending generalizing s with
  | nil => exact hs
  | cons entry pending ih =>
    rw [DataSet.linkByIds]
    split
    · next handles hids => exact ih (Every.link hs fun _ _ => hi.lt_of_handlesOf hids) hi.link
    · exact hs

theorem Live.step (hs : Live s) (hi : Indexed s) (step : Step) :
    Live (s.step arithmetic step).1 := by
  rcases s.step_cases arithmetic step with h | ⟨a, -, ha, h⟩ | ⟨-, w, k, a, b, -, -, ha, hb, h⟩ |
    ⟨pending, -, h⟩
  · rw [h]
    exact hs
  · rw [h]
    exact hs.pushed ha
  · rw [h]
    exact hs.put ha hb
  · rw [h]
    exact hs.linkByIds hi pending

theorem Live.run (hs : Live s) (hi : Indexed s) (steps : List Step) :
    Live (s.run arithmetic steps).1 := by
  induction steps generalizing s with
  | nil => exact hs
  | cons step steps ih => exact ih (hs.step hi step) (hi.step step)

/-! ## From handles to ids and back -/

/-- Handles of arrays come back, in order and with their repetitions. -/
theorem filterMap_handle?_ids (hi : Indexed s) {handles : List Handle}
    (h : ∀ k ∈ handles, k.index < s.size) :
    ((handles.filterMap s.get?).map DataArray.id).filterMap s.handle? = handles := by
  induction handles with
  | nil => rfl
  | cons k handles ih =>
    obtain ⟨hk, h⟩ := List.forall_mem_cons.1 h
    obtain ⟨a, ha⟩ := Option.isSome_iff_exists.1 (isSome_get?_iff.2 hk)
    have hid : s.handle? a.id = some k := hi.handle?_of_get? ha
    rw [List.filterMap_cons_some ha, List.map_cons, List.filterMap_cons_some hid, ih h]

theorem known_dependencyIds (s : DataSet) (a : DataArray) : s.Known (s.dependencyIds a) := by
  intro id hid
  obtain ⟨b, hb, rfl⟩ := List.mem_map.1 hid
  obtain ⟨k, -, hk⟩ := List.mem_filterMap.1 hb
  exact List.mem_map_of_mem (mem_arrays_iff.2 ⟨k, hk⟩)

/-- The ids of the set arrays of the array behind a handle; none if there is no array. -/
def idsBehind (s : DataSet) (h : Handle) : List String :=
  ((s.get? h).map s.dependencyIds).getD []

theorem known_idsBehind (s : DataSet) (h : Handle) : s.Known (s.idsBehind h) := by
  unfold idsBehind
  cases s.get? h with
  | none => exact fun _ hid => by cases hid
  | some a => exact known_dependencyIds s a

/-- In every state of a run, linking arrays by the ids of their set arrays, in any order and with
repetitions, succeeds and leaves the data set as it is. Handles of no array do no harm. -/
theorem step_linkByIds_idsBehind (arithmetic : Arithmetic) (location : String) (disk : Disk)
    (steps : List Step) (handles : List Handle) :
    let s := (run arithmetic { location, disk } steps).1
    s.step arithmetic (.linkByIds (handles.map fun k => (k, s.idsBehind k))) =
      (s, .ok .linked) := by
  intro s
  have hi : Indexed s := (indexed_empty location disk).run steps
  have hs : Live s := (live_empty location disk).run (indexed_empty location disk) steps
  have hknown : ∀ entry ∈ handles.map fun k => (k, s.idsBehind k), s.Known entry.2 := by
    intro entry he
    obtain ⟨k, -, rfl⟩ := List.mem_map.1 he
    exact known_idsBehind s k
  have hsame : s.linked (handles.map fun k => (k, s.idsBehind k)) = s := by
    refine eq_of_get?_eq (linked_eq s _) fun k => ?_
    rw [get?_linked]
    cases ha : s.get? k with
    | none => rfl
    | some a =>
      rw [Option.map_some]
      congr 1
      split
      · rfl
      · next ids hlast =>
        -- whichever entry it is, its ids are those of the array as it is
        obtain ⟨other, -, he⟩ :=
          List.mem_map.1 (List.mem_reverse.1 (Keyed.mem_of_lookup_eq_some hlast))
        obtain ⟨rfl, rfl⟩ := Prod.ext_iff.1 he
        have hids : (s.idsBehind other).filterMap s.handle? = a.setArrays := by
          unfold idsBehind
          rw [ha]
          exact filterMap_handle?_ids hi (hs other a ha)
        rw [hids]
        rfl
  rw [step_linkByIds_of_known arithmetic hi hknown, hsame]

/-- An independent variable that gets a set array, an array that refers to itself, and a second pass
that stops. -/
def entangledSteps : List Step :=
  [.add { id := "x", isSetpoint := true }, .add { id := "y", setArrays := [⟨0⟩] },
    .write (.id "y") (.append [Double.nan]),
    .linkByIds [(⟨1⟩, ["y", "x", "y"]), (⟨0⟩, ["y"]), (⟨1⟩, ["z"])]]

def entangledHandles : List Handle := [⟨1⟩, ⟨0⟩, ⟨1⟩]

theorem step_linkByIds_idsBehind_entangledSteps :
    let s := (run .checked {} entangledSteps).1
    s.size = 2 ∧ entangledHandles.map s.idsBehind = [["y", "x", "y"], ["y"], ["y", "x", "y"]] ∧
      s.step .checked (.linkByIds (entangledHandles.map fun k => (k, s.idsBehind k))) =
        (s, .ok .linked) :=
  ⟨by decide, by decide, step_linkByIds_idsBehind .checked "" {} entangledSteps entangledHandles⟩

end ArrayStore.DataSet
