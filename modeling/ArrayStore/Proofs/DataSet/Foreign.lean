import ArrayStore.Proofs.DataSet.Permanence
import ArrayStore.Proofs.DataSet.Refusals

/-!
# Handles of another data set

A handle is a position, so a handle that one data set gave out may be that of an array in another.

* `lt_of_mem_handles` : the handles that a run gives out are those of its arrays;
* `accepts_iff` : whether an array without other faults is taken is decided by its handles alone;
* `Honours` : a handle of another data set is refused, or means an array with the same id here;
* `honours_iff` : exactly when that is so;
* `exists_not_honours` : a handle within the data set is taken, whatever array it was given out for.
-/

namespace ArrayStore.DataSet
variable {arithmetic : Arithmetic} {s t : DataSet} {h : Handle} {a : DataArray}

theorem isDirect_of_mem_map_add {arrays : List DataArray} :
    ∀ step ∈ arrays.map Step.add, step.IsDirect := by
  intro step hstep
  obtain ⟨a, -, rfl⟩ := List.mem_map.1 hstep
  trivial

theorem lt_of_mem_handles {location : String} {disk : Disk} {steps : List Step}
    (hsteps : ∀ step ∈ steps, step.IsDirect)
    (hh : h ∈ handles (run arithmetic { location, disk } steps).2) :
    h.index < (run arithmetic { location, disk } steps).1.size := by
  have hadded := added_run arithmetic (s := { location, disk }) hsteps
  rw [hadded.handles] at hh
  obtain ⟨i, hi, rfl⟩ := List.mem_map.1 hh
  rw [List.mem_range'_1] at hi
  rw [hadded.size]
  exact hi.2

theorem accepts_iff (ht : Indexed t) (hset : a.isSetpoint = false)
    (hnew : a.id ∉ t.arrays.map DataArray.id) :
    t.Accepts a ↔ ∀ k ∈ a.setArrays, k.index < t.size := by
  constructor
  · intro ha
    exact ha.known
  · intro hknown
    refine ⟨ht.notMem_ids_iff.1 hnew, fun hs => ?_, hknown⟩
    rw [hset] at hs
    cases hs

/-- Only its handles are left to refuse it for. -/
theorem step_add_of_foreign (arithmetic : Arithmetic) (ht : Indexed t) (hset : a.isSetpoint = false)
    (hnew : a.id ∉ t.arrays.map DataArray.id) (ha : ¬t.Accepts a) :
    ∃ reason, t.step arithmetic (.add a) = (t, .error (.invalidArray a.id reason)) := by
  obtain ⟨fault, hadd, hstep⟩ := step_add_of_not_accepts ha
  have hrefuses : t.Refuses a fault.toError := refuses_of_add ht hadd
  rw [hstep]
  generalize fault.toError = e at hrefuses
  cases hrefuses with
  | duplicate htaken => exact absurd htaken hnew
  | setpoint _ hs _ => simp [hset] at hs
  | foreign => exact ⟨_, rfl⟩

/-- Adding the array to the second data set either refuses it for its set arrays and leaves no
trace, or takes it, and then arrays with one id stand at the handle in both data sets. -/
def Honours (arithmetic : Arithmetic) (first second : DataSet) (h : Handle) (a : DataArray) :
    Prop :=
  (∃ reason, second.step arithmetic (.add a) = (second, .error (.invalidArray a.id reason))) ∨
    (∃ k, (second.step arithmetic (.add a)).2 = .ok (.handle k)) ∧
      (second.get? h).map DataArray.id = (first.get? h).map DataArray.id

/-- A handle that one data set gave out is honoured by another just if an array of the same id
stands at it there, or a set array of the new array is beyond the end, such as the handle itself. -/
theorem honours_iff (arithmetic : Arithmetic) (location otherLocation : String)
    (disk otherDisk : Disk) (arrays others : List DataArray) {h : Handle} {a : DataArray} :
    let first := run arithmetic { location, disk } (arrays.map .add)
    let second :=
      (run arithmetic { location := otherLocation, disk := otherDisk } (others.map .add)).1
    h ∈ handles first.2 → h ∈ a.setArrays → a.isSetpoint = false →
      a.id ∉ second.arrays.map DataArray.id →
      ∃ b, first.1.get? h = some b ∧
        (Honours arithmetic first.1 second h a ↔
          (second.get? h).map DataArray.id = some b.id ∨
            ∃ k ∈ a.setArrays, second.size ≤ k.index) := by
  intro first second hh hmem hset hnew
  have hsecond : Indexed second := (indexed_empty otherLocation otherDisk).run _
  obtain ⟨b, hb⟩ : ∃ b, first.1.get? h = some b :=
    Option.isSome_iff_exists.1 (isSome_get?_iff.2 (lt_of_mem_handles isDirect_of_mem_map_add hh))
  refine ⟨b, hb, ?_⟩
  unfold Honours
  rw [hb, Option.map_some]
  by_cases ha : second.Accepts a
  · -- the array is taken, and the ids alone decide
    have hknown : ¬∃ k ∈ a.setArrays, second.size ≤ k.index := by
      rintro ⟨k, hk, hle⟩
      exact Nat.not_lt_of_le hle (ha.known k hk)
    simp only [step_add_of_accepts ha, hknown, or_false]
    simp
  · have hunknown : ∃ k ∈ a.setArrays, second.size ≤ k.index := by
      by_contra hall
      apply ha
      rw [accepts_iff hsecond hset hnew]
      intro k hk
      apply Nat.lt_of_not_le
      exact fun hle => hall ⟨k, hk, hle⟩
    have hrefused := step_add_of_foreign arithmetic hsecond hset hnew ha
    exact ⟨fun _ => Or.inr hunknown, fun _ => Or.inl hrefused⟩

/-- The handle of `x` in the one data set is beyond the end of the other, which holds `z`. -/
theorem honours_iff_short :
    let first := run .checked {} [.add { id := "w" }, .add { id := "x" }]
    let second := (run .checked {} [.add { id := "z" }]).1
    (⟨1⟩ : Handle) ∈ handles first.2 ∧ "y" ∉ second.arrays.map DataArray.id ∧
      Honours .checked first.1 second ⟨1⟩ { id := "y", setArrays := [⟨0⟩, ⟨1⟩] } := by
  have hh : (⟨1⟩ : Handle) ∈
      handles (run .checked {} [.add { id := "w" }, .add { id := "x" }]).2 := by decide
  have hnew : "y" ∉ (run .checked {} [.add { id := "z" }]).1.arrays.map DataArray.id := by decide
  obtain ⟨b, -, hiff⟩ :=
    honours_iff .checked "" "" {} {} [{ id := "w" }, { id := "x" }] [{ id := "z" }]
    (a := { id := "y", setArrays := [⟨0⟩, ⟨1⟩] }) hh (by decide) rfl hnew
  exact ⟨hh, hnew, hiff.2 (Or.inr ⟨⟨1⟩, by decide, by decide⟩)⟩

/-- The handle of `x` is taken for that of `z`, which is as far in front. -/
theorem exists_not_honours :
    ∃ (arrays others : List DataArray) (h : Handle) (a : DataArray),
      let first := run .checked {} (arrays.map .add)
      let second := (run .checked {} (others.map .add)).1
      h ∈ handles first.2 ∧ h ∈ a.setArrays ∧ a.isSetpoint = false ∧
        a.id ∉ second.arrays.map DataArray.id ∧
        (first.1.get? h).map DataArray.id = some "x" ∧
        (second.step .checked (.add a)).2 = .ok (.handle ⟨1⟩) ∧
        (second.step .checked (.add a)).1.dependencyIds a = ["z"] ∧
        ¬Honours .checked first.1 second h a := by
  have htaken : ((run .checked {} [.add { id := "z" }]).1.step .checked
      (.add { id := "y", setArrays := [⟨0⟩] })).2 = .ok (.handle ⟨1⟩) := by decide
  refine ⟨[{ id := "x" }], [{ id := "z" }], ⟨0⟩, { id := "y", setArrays := [⟨0⟩] }, by decide,
    by decide, rfl, by decide, by decide, htaken, by decide, ?_⟩
  rintro (⟨reason, hrefused⟩ | ⟨-, hid⟩)
  · have hanswer := htaken.symm.trans (congrArg Prod.snd hrefused)
    cases hanswer
  · exact absurd hid (by decide)

end ArrayStore.DataSet
