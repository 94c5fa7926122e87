import ArrayStore.Proofs.DataSet.Indexing

/-!
# The index and the arrays stay in step

* `Coherent` : the index names the positions of the arrays, and every set array is in the data set;
* `Coherent.pushed`, `Coherent.put`, `Coherent.link` : adding, writing and linking keep it;
* `Coherent.linkByIds` : so does the second pass, also when it stops halfway;
* `Admits` : the second pass links only arrays that are no independent variables;
* `run_coherent` : what every state of a run satisfies.
-/

namespace ArrayStore.DataSet
variable {arithmetic : Arithmetic} {s t : DataSet}

/-- The set arrays of an array lie below a bound, and an independent variable has none. -/
structure LinksBelow (bound : Nat) (a : DataArray) : Prop where
  lt : ∀ h ∈ a.setArrays, h.index < bound
  setpoint : a.isSetpoint = true → a.setArrays = []

/-- The index names the positions of the arrays, and every set array is in the data set. -/
structure Coherent (s : DataSet) : Prop where
  handle?_eq_some_iff : ∀ id h, s.handle? id = some h ↔ (s.get? h).map DataArray.id = some id
  links : ∀ h a, s.get? h = some a → LinksBelow s.size a

/-! ## What follows -/

theorem Coherent.indexed (hs : Coherent s) : Indexed s := hs.handle?_eq_some_iff

theorem Coherent.handle?_of_get? (hs : Coherent s) {h : Handle} {a : DataArray}
    (ha : s.get? h = some a) : s.handle? a.id = some h := hs.indexed.handle?_of_get? ha

theorem Coherent.get?_of_handle? (hs : Coherent s) {id : String} {h : Handle}
    (hh : s.handle? id = some h) : ∃ a, s.get? h = some a ∧ a.id = id :=
  hs.indexed.get?_of_handle? hh

theorem Coherent.lt_of_handle? (hs : Coherent s) {id : String} {h : Handle}
    (hh : s.handle? id = some h) : h.index < s.size := hs.indexed.lt_of_handle? hh

theorem Coherent.nodup_ids (hs : Coherent s) : (s.arrays.map DataArray.id).Nodup :=
  hs.indexed.nodup_ids

/-- Handles below the size are those of arrays, so none of them is left out. -/
theorem map_some_filterMap_get? {handles : List Handle} (h : ∀ k ∈ handles, k.index < s.size) :
    (handles.filterMap s.get?).map some = handles.map s.get? := by
  induction handles with
  | nil => rfl
  | cons k handles ih =>
    obtain ⟨hk, h⟩ := List.forall_mem_cons.1 h
    obtain ⟨a, ha⟩ := Option.isSome_iff_exists.1 (isSome_get?_iff.2 hk)
    rw [List.filterMap_cons_some ha, List.map_cons, List.map_cons, ha, ih h]

/-! ## What keeps it -/

theorem coherent_empty (location : String) (disk : Disk) : Coherent { location, disk } :=
  ⟨indexed_empty location disk, fun _ _ ha => by cases ha⟩

theorem Coherent.pushed (hs : Coherent s) {a : DataArray} (ha : s.Accepts a) :
    Coherent (s.pushed a) := by
  have hgrow : ∀ b, LinksBelow s.size b → LinksBelow (s.size + 1) b :=
    fun b hb => ⟨fun k hk => Nat.lt_succ_of_lt (hb.lt k hk), hb.setpoint⟩
  have hlinks : Every (fun bound _ b => LinksBelow bound b) s := hs.links
  exact ⟨hs.indexed.pushed ha.fresh,
    hlinks.pushed (fun _ b => hgrow b) (hgrow a ⟨ha.known, ha.setpoint⟩)⟩

theorem Coherent.put (hs : Coherent s) {h : Handle} {a b : DataArray} {w : DataArray.Write}
    (ha : s.get? h = some a) (hb : a.write arithmetic w = .ok b) : Coherent (s.put h b) := by
  have hlinks : Every (fun bound _ b => LinksBelow bound b) s := hs.links
  refine ⟨hs.indexed.put ha hb, hlinks.put ha ?_⟩
  obtain ⟨samples, rfl⟩ := DataArray.write_eq_ok hb
  have hl := hs.links h a ha
  exact ⟨hl.lt, hl.setpoint⟩

/-- The handles have to be known, and an independent variable gets none. -/
theorem Coherent.link (hs : Coherent s) {h : Handle} {setArrays : List Handle}
    (hlt : ∀ k ∈ setArrays, k.index < s.size)
    (hset : ∀ a, s.get? h = some a → a.isSetpoint = true → setArrays = []) :
    Coherent (s.link h setArrays) := by
  have hlinks : Every (fun bound _ b => LinksBelow bound b) s := hs.links
  exact ⟨hs.indexed.link, hlinks.link fun a ha => ⟨hlt, hset a ha⟩⟩

/-- Entry by entry, and a prefix of the entries is linked when an id is in no array. -/
theorem Coherent.linkByIds {pending : List (Handle × List String)} (hs : Coherent s)
    (hp : ∀ entry ∈ pending, ∀ a, s.get? entry.1 = some a → a.isSetpoint = true → entry.2 = []) :
    Coherent (s.linkByIds pending).1 := by
  induction pending generalizing s with
  | nil => exact hs
  | cons entry pending ih =>
    obtain ⟨h, ids⟩ := entry
    obtain ⟨hentry, hp⟩ := List.forall_mem_cons.1 hp
    rw [DataSet.linkByIds]
    split
    · next handles hids =>
      have hknown : ∀ k ∈ handles, k.index < s.size := hs.indexed.lt_of_handlesOf hids
      have hempty : ∀ a, s.get? h = some a → a.isSetpoint = true → handles = [] := by
        intro a ha hset
        have hnone : ids = [] := hentry a ha hset
        rw [hnone] at hids
        exact (Except.ok.inj hids).symm
      refine ih (hs.link hknown hempty) fun entry he b hb => ?_
      -- linking leaves the flags as they are
      rw [get?_link] at hb
      obtain ⟨a, ha, rfl⟩ := Option.map_eq_some_iff.1 hb
      have hflag : (if entry.1 = h then a.linkTo handles else a).isSetpoint = a.isSetpoint := by
        split <;> rfl
      rw [hflag]
      exact hp entry he a ha
    · exact hs

/-! ## Runs -/

/-- What is asked of a step: the second pass links only arrays that are no independent variables.
Anything may be added and written. -/
def Admits (s : DataSet) : Step → Prop
  | .linkByIds pending =>
    ∀ entry ∈ pending, (s.get? entry.1).map DataArray.isSetpoint = some false
  | _ => True

instance (s : DataSet) (step : Step) : Decidable (s.Admits step) := by
  unfold Admits
  cases step <;> infer_instance

theorem Coherent.step (hs : Coherent s) {step : Step} (hstep : s.Admits step) :
    Coherent (s.step arithmetic step).1 := by
  rcases s.step_cases arithmetic step with h | ⟨a, -, ha, h⟩ | ⟨-, w, k, a, b, -, -, ha, hb, h⟩ |
    ⟨pending, rfl, h⟩
  · rw [h]
    exact hs
  · rw [h]
    exact hs.pushed ha
  · rw [h]
    exact hs.put ha hb
  · rw [h]
    refine hs.linkByIds fun entry he a ha hset => ?_
    have hflag := hstep entry he
    rw [ha, Option.map_some, hset] at hflag
    cases hflag

/-- After any number of steps of a run, ids are distinct, an id is looked up where its array is,
all set arrays are in the data set and give one array each, and independent variables have none. -/
theorem run_coherent (arithmetic : Arithmetic) (location : String) (disk : Disk)
    (steps : List Step) (h : Follows arithmetic Admits { location, disk } steps) (count : Nat) :
    let s := (run arithmetic { location, disk } (steps.take count)).1
    (s.arrays.map DataArray.id).Nodup ∧
      (∀ id k, s.handle? id = some k ↔ k.index < s.size ∧ (s.get? k).map DataArray.id = some id) ∧
      (∀ a ∈ s.arrays, ∀ k ∈ a.setArrays, k.index < s.size) ∧
      (∀ a ∈ s.arrays, (s.dependencies a).map some = a.setArrays.map s.get?) ∧
      ∀ a ∈ s.arrays, a.isSetpoint = true → a.setArrays = [] := by
  intro s
  have hstep : ∀ u step, Coherent u → Admits u step → Coherent (u.step arithmetic step).1 :=
    fun _ _ hu hstep => hu.step hstep
  have hs : Coherent s := run_invariant hstep (coherent_empty location disk) (h.take count)
  have hlinks : ∀ a ∈ s.arrays, LinksBelow s.size a := by
    intro a ha
    obtain ⟨k, hk⟩ := mem_arrays_iff.1 ha
    exact hs.links k a hk
  refine ⟨hs.nodup_ids, fun id k => ⟨fun hk => ?_, fun hk => ?_⟩, fun a ha => (hlinks a ha).lt,
    fun a ha => map_some_filterMap_get? (hlinks a ha).lt, fun a ha => (hlinks a ha).setpoint⟩
  · exact ⟨hs.lt_of_handle? hk, (hs.handle?_eq_some_iff id k).1 hk⟩
  · exact (hs.handle?_eq_some_iff id k).2 hk.2

/-- A second pass that fails behind its first entry, after a refused array and a write. -/
def linkedSteps : List Step :=
  [.add { id := "y" }, .add { id := "x", isSetpoint := true, samples := [Double.nan] },
    .add { id := "y" }, .write (.id "x") (.sample 0 Double.nan),
    .linkByIds [(⟨0⟩, ["x", "y"]), (⟨0⟩, ["z"])]]

theorem run_coherent_linkedSteps :
    Follows .checked Admits {} linkedSteps ∧
      ((run .checked {} linkedSteps).1.get? ⟨0⟩).map DataArray.setArrays = some [⟨1⟩, ⟨0⟩] ∧
      ∀ a ∈ (run .checked {} (linkedSteps.take 5)).1.arrays, ∀ k ∈ a.setArrays,
        k.index < (run .checked {} (linkedSteps.take 5)).1.size := by
  have h : Follows .checked Admits {} linkedSteps := by decide
  exact ⟨h, by decide, (run_coherent .checked "" {} linkedSteps h 5).2.2.1⟩

end ArrayStore.DataSet
