import ArrayStore.Proofs.DataSet.Permanence
import ArrayStore.Proofs.DataSet.Relinking
import Mathlib.Data.List.Chain
import Mathlib.Logic.Relation

/-!
# No array depends on itself

* `DependsOn` : an array was measured against another, by their handles;
* `Layered` : every set array stands in front of the arrays that were measured against it;
  `layered_run` : so it does as long as arrays are only added and written;
* `Layered.length_le_of_isChain`, `Layered.wellFounded`, `Layered.not_transGen` : then following set
  arrays always ends;
* `transGen_of_step_add` : in every state of a run, second passes included, adding an array closes
  no cycle;
* `run_acyclic` : all of this for the data sets that are built without a second pass.
-/

namespace ArrayStore.DataSet
open Relation (TransGen)

variable {arithmetic : Arithmetic} {s : DataSet} {h k : Handle}

/-- The array behind the first handle was measured against that behind the second. -/
def DependsOn (s : DataSet) (h k : Handle) : Prop := ∃ a, s.get? h = some a ∧ k ∈ a.setArrays

/-! ## Set arrays stand in front -/

/-- Every set array stands in front of the arrays that were measured against it. -/
def Layered (s : DataSet) : Prop :=
  Every (fun _ h a => ∀ k ∈ a.setArrays, k.index < h.index) s

theorem layered_empty (location : String) (disk : Disk) : Layered { location, disk } :=
  fun _ _ ha => by cases ha

/-- An array is accepted only with set arrays that are there already, and so not with itself. -/
theorem Layered.pushed (hs : Layered s) {a : DataArray} (ha : s.Accepts a) :
    Layered (s.pushed a) := by
  apply Every.pushed hs
  · intro h b hb
    exact hb
  · exact ha.known

theorem Layered.put (hs : Layered s) {a b : DataArray} {w : DataArray.Write}
    (ha : s.get? h = some a) (hb : a.write arithmetic w = .ok b) : Layered (s.put h b) := by
  apply Every.put hs ha
  obtain ⟨samples, rfl⟩ := DataArray.write_eq_ok hb
  exact hs h a ha

theorem Layered.step (hs : Layered s) {step : Step} (hstep : step.IsDirect) :
    Layered (s.step arithmetic step).1 := by
  rcases s.step_cases arithmetic step with
    he | ⟨a, -, ha, he⟩ | ⟨-, w, k, a, b, -, -, ha, hb, he⟩ | ⟨pending, rfl, -⟩
  · rw [he]
    exact hs
  · rw [he]
    exact hs.pushed ha
  · rw [he]
    exact hs.put ha hb
  · exact hstep.elim

theorem layered_run (hs : Layered s) {steps : List Step} (h : ∀ step ∈ steps, step.IsDirect) :
    Layered (s.run arithmetic steps).1 := by
  induction steps generalizing s with
  | nil => exact hs
  | cons step steps ih =>
    obtain ⟨hstep, h⟩ := List.forall_mem_cons.1 h
    exact ih (hs.step hstep) h

/-! ## Following set arrays -/

theorem Layered.lt (hs : Layered s) (hk : s.DependsOn h k) : k.index < h.index := by
  obtain ⟨a, ha, hk⟩ := hk
  exact hs h a ha k hk

/-- Each step along the set arrays leads to a smaller handle. -/
theorem Layered.length_le_of_isChain (hs : Layered s) {path : List Handle}
    (hpath : List.IsChain s.DependsOn (h :: path)) : path.length ≤ h.index := by
  induction path generalizing h with
  | nil => exact Nat.zero_le h.index
  | cons k path ih =>
    obtain ⟨hk, hpath⟩ := List.isChain_cons_cons.1 hpath
    have hlt : k.index < h.index := hs.lt hk
    have hle : path.length ≤ k.index := ih hpath
    rw [List.length_cons]
    omega

theorem Layered.wellFounded (hs : Layered s) : WellFounded fun k h => s.DependsOn h k := by
  apply Subrelation.wf _ (measure Handle.index).wf
  intro k h hk
  exact hs.lt hk

theorem Layered.not_transGen (hs : Layered s) (h : Handle) : ¬TransGen s.DependsOn h h := by
  have hlt : ∀ k, TransGen s.DependsOn h k → k.index < h.index := by
    intro k hk
    induction hk with
    | single hk => exact hs.lt hk
    | tail _ hk ih => exact Nat.lt_trans (hs.lt hk) ih
  intro hh
  exact Nat.lt_irrefl _ (hlt h hh)

/-! ## Adding closes no cycle -/

/-- The new array is no set array of any array: those stand in front of it. -/
theorem lt_of_dependsOn_pushed (hs : Live s) {a : DataArray} (ha : s.Accepts a)
    (hk : (s.pushed a).DependsOn h k) : k.index < s.size := by
  obtain ⟨b, hb, hk⟩ := hk
  rw [get?_pushed] at hb
  split at hb
  · cases hb
    exact ha.known k hk
  · exact hs h b hb k hk

/-- An array that was there before depends on what it depended on. -/
theorem dependsOn_of_pushed {a : DataArray} (hh : h.index < s.size)
    (hk : (s.pushed a).DependsOn h k) : s.DependsOn h k := by
  obtain ⟨b, hb, hk⟩ := hk
  rw [get?_pushed, if_neg (Nat.ne_of_lt hh)] at hb
  exact ⟨b, hb, hk⟩

theorem transGen_of_pushed (hs : Live s) {a : DataArray} (ha : s.Accepts a) (hh : h.index < s.size)
    (hk : TransGen (s.pushed a).DependsOn h k) : TransGen s.DependsOn h k := by
  induction hk with
  | single hk => exact .single (dependsOn_of_pushed hh hk)
  | tail hj hk ih =>
    -- the array in between is the set array of another, so it is not the new one
    obtain ⟨_, -, hj⟩ := TransGen.tail'_iff.1 hj
    exact ih.tail (dependsOn_of_pushed (lt_of_dependsOn_pushed hs ha hj) hk)

theorem transGen_of_step_add (hs : Live s) {a : DataArray}
    (hh : TransGen (s.step arithmetic (.add a)).1.DependsOn h h) : TransGen s.DependsOn h h := by
  by_cases ha : s.Accepts a
  · rw [step_add_of_accepts ha] at hh
    obtain ⟨_, -, hlast⟩ := TransGen.tail'_iff.1 hh
    exact transGen_of_pushed hs ha (lt_of_dependsOn_pushed hs ha hlast) hh
  · obtain ⟨fault, -, hstep⟩ := step_add_of_not_accepts ha
    rw [hstep] at hh
    exact hh

/-! ## Whole runs -/

/-- As long as arrays are only added and written, every set array has a smaller handle than the
arrays that were measured against it. So following set arrays takes no more steps than the handle
says, no array depends on itself, and no array that is added changes that. Nor does adding close a
cycle later, after second passes. -/
theorem run_acyclic (arithmetic : Arithmetic) (location : String) (disk : Disk)
    (steps more : List Step) (h : ∀ step ∈ steps, step.IsDirect) :
    let s := (run arithmetic { location, disk } steps).1
    let t := (s.run arithmetic more).1
    (∀ k a, s.get? k = some a → ∀ j ∈ a.setArrays, j.index < k.index) ∧
      (∀ k path, List.IsChain s.DependsOn (k :: path) → path.length ≤ k.index) ∧
      WellFounded (fun j k => s.DependsOn k j) ∧
      (∀ k, ¬TransGen s.DependsOn k k) ∧
      (∀ a k, ¬TransGen (s.step arithmetic (.add a)).1.DependsOn k k) ∧
      ∀ a k, TransGen (t.step arithmetic (.add a)).1.DependsOn k k → TransGen t.DependsOn k k := by
  intro s t
  have hindexed : Indexed s := (indexed_empty location disk).run steps
  have hlive : Live s := (live_empty location disk).run (indexed_empty location disk) steps
  have hs : Layered s := layered_run (layered_empty location disk) h
  have ht : Live t := hlive.run hindexed more
  refine ⟨hs, fun k path => hs.length_le_of_isChain, hs.wellFounded, hs.not_transGen,
    fun a k hk => ?_, fun a k => transGen_of_step_add ht⟩
  exact hs.not_transGen k (transGen_of_step_add hlive hk)

/-- An array with two set arrays, one that asks for its own handle, and a write. -/
def layeredSteps : List Step :=
  [.add { id := "x", isSetpoint := true }, .add { id := "y", setArrays := [⟨0⟩] },
    .add { id := "z", setArrays := [⟨2⟩] }, .add { id := "z", setArrays := [⟨1⟩, ⟨0⟩] },
    .write (.id "z") (.append [⟨0⟩])]

theorem run_acyclic_layeredSteps :
    let s := (run .checked {} layeredSteps).1
    (∀ step ∈ layeredSteps, step.IsDirect) ∧ s.DependsOn ⟨2⟩ ⟨1⟩ ∧ s.DependsOn ⟨1⟩ ⟨0⟩ ∧
      ∀ path, List.IsChain s.DependsOn (⟨2⟩ :: path) → path.length ≤ 2 := by
  have h : ∀ step ∈ layeredSteps, step.IsDirect := by decide
  have hz : (run .checked {} layeredSteps).1.DependsOn ⟨2⟩ ⟨1⟩ := ⟨_, rfl, by decide⟩
  have hy : (run .checked {} layeredSteps).1.DependsOn ⟨1⟩ ⟨0⟩ := ⟨_, rfl, by decide⟩
  exact ⟨h, hz, hy, (run_acyclic .checked "" {} layeredSteps [] h).2.1 ⟨2⟩⟩

end ArrayStore.DataSet
