import ArrayStore.Proofs.DataSet.Indexing

/-!
# Failed steps leave no trace

* `Settles` : a second pass, if the step is one, finds all ids;
* `succeeded` : the steps of a run without those that fail; `run_succeeded` : they lead to the same
  data set with the same answers;
* `Refuses`, `Barred` : which failure an array is answered with, and when there is one;
* `step_add_eq_error_iff`, `barred_iff` : so it is;
* `failures_leave_no_trace` : both, in every state of a run.
-/

namespace ArrayStore.DataSet
variable {arithmetic : Arithmetic} {s t : DataSet} {a : DataArray}

/-! ## Runs without their failures -/

/-- The second pass finds all ids; any other step will do. -/
def Settles (s : DataSet) : Step → Prop
  | .linkByIds pending => (s.linkByIds pending).2.isOk = true
  | _ => True

instance (s : DataSet) : (step : Step) → Decidable (s.Settles step)
  | .add _ | .write .. => .isTrue trivial
  | .linkByIds pending => inferInstanceAs (Decidable ((s.linkByIds pending).2.isOk = true))

/-- The steps that do not fail when all are taken in turn. -/
def succeeded (arithmetic : Arithmetic) (s : DataSet) (steps : List Step) : List Step :=
  ((steps.zip (s.run arithmetic steps).2).filter fun taken => taken.2.isOk).map Prod.fst

theorem succeeded_cons (s : DataSet) (step : Step) (steps : List Step) :
    s.succeeded arithmetic (step :: steps) =
      if (s.step arithmetic step).2.isOk then
        step :: (s.step arithmetic step).1.succeeded arithmetic steps
      else (s.step arithmetic step).1.succeeded arithmetic steps := by
  unfold succeeded
  rw [run_cons, List.zip_cons_cons, List.filter_cons]
  split <;> rfl

/-- A step that fails changes nothing, unless it is a second pass that stopped halfway. -/
theorem step_of_failed {step : Step} (h : s.Settles step)
    (hfail : (s.step arithmetic step).2.isOk = false) : (s.step arithmetic step).1 = s := by
  cases step with
  | add a =>
    by_cases ha : s.Accepts a
    · rw [step_add_of_accepts ha] at hfail
      cases hfail
    · obtain ⟨fault, -, hstep⟩ := step_add_of_not_accepts ha
      rw [hstep]
  | write target w =>
    rcases s.step_write_cases arithmetic target w with
      ⟨-, he⟩ | ⟨k, a, -, -, ⟨b, -, he⟩ | ⟨fault, -, he⟩⟩ <;> rw [he] at hfail ⊢
    cases hfail
  | linkByIds pending =>
    have hok : (s.linkByIds pending).2.isOk = true := h
    rw [DataSet.step] at hfail
    split at hfail
    · cases hfail
    · next u unresolved hu =>
      rw [hu] at hok
      cases hok

/-- Without its failures, a run ends in the same data set, and the other steps get the same
answers. -/
theorem run_succeeded {steps : List Step} (h : Follows arithmetic Settles s steps) :
    s.run arithmetic (s.succeeded arithmetic steps) =
      ((s.run arithmetic steps).1, (s.run arithmetic steps).2.filter Except.isOk) := by
  induction steps generalizing s with
  | nil => rfl
  | cons step steps ih =>
    obtain ⟨hstep, h⟩ := h
    rw [succeeded_cons, run_cons]
    cases hok : (s.step arithmetic step).2.isOk with
    | true => rw [if_pos rfl, run_cons, ih h, List.filter_cons_of_pos hok]
    | false =>
      have hsame : (s.step arithmetic step).1 = s := step_of_failed hstep hok
      rw [hsame] at h ⊢
      rw [if_neg Bool.false_ne_true, ih h, List.filter_cons_of_neg (by simp [hok])]

/-! ## Why an array is refused -/

/-- The failure that an array is answered with. An id that is taken comes first, then the set
arrays of an independent variable, then the first of the set arrays that is not there. -/
inductive Refuses (s : DataSet) (a : DataArray) : StoreError → Prop where
  | duplicate (htaken : a.id ∈ s.arrays.map DataArray.id) : Refuses s a (.duplicateArray a.id)
  | setpoint (hnew : a.id ∉ s.arrays.map DataArray.id) (hset : a.isSetpoint = true)
      (hlinks : a.setArrays ≠ []) :
      Refuses s a (.invalidArray a.id "setpoint arrays cannot have set arrays")
  | foreign (hnew : a.id ∉ s.arrays.map DataArray.id)
      (hset : a.isSetpoint = true → a.setArrays = []) (before : List Handle) (k : Handle)
      (after : List Handle) (hsplit : a.setArrays = before ++ k :: after)
      (hbefore : ∀ h ∈ before, h.index < s.size) (hk : s.size ≤ k.index) :
      Refuses s a (.invalidArray a.id
        ("set array #" ++ toString k.index ++ " is not part of this data set"))

/-- Something keeps the array out. -/
def Barred (s : DataSet) (a : DataArray) : Prop :=
  a.id ∈ s.arrays.map DataArray.id ∨ (a.isSetpoint = true ∧ a.setArrays ≠ []) ∨
    ∃ k ∈ a.setArrays, s.size ≤ k.index

theorem Indexed.notMem_ids_iff (hs : Indexed s) {id : String} :
    id ∉ s.arrays.map DataArray.id ↔ s.handle? id = none := by
  rw [hs.mem_ids_iff, Option.not_isSome_iff_eq_none]

theorem barred_iff (hs : Indexed s) : s.Barred a ↔ ¬s.Accepts a := by
  constructor
  · rintro (htaken | ⟨hset, hlinks⟩ | ⟨k, hk, hle⟩) ha
    · exact hs.notMem_ids_iff.2 ha.fresh htaken
    · exact hlinks (ha.setpoint hset)
    · exact Nat.not_lt_of_le hle (ha.known k hk)
  · intro ha
    by_contra hb
    simp only [Barred, not_or, not_and, not_exists, Nat.not_le, Decidable.not_not] at hb
    obtain ⟨hnew, hset, hknown⟩ := hb
    exact ha ⟨hs.notMem_ids_iff.1 hnew, hset, hknown⟩

theorem refuses_of_add (hs : Indexed s) {fault : AddFault} (h : s.add a = .error fault) :
    s.Refuses a fault.toError := by
  unfold add at h
  split at h
  · next htaken =>
    cases h
    exact .duplicate (hs.mem_ids_iff.2 htaken)
  · next hnew =>
    have hnew : a.id ∉ s.arrays.map DataArray.id := fun hm => hnew (hs.mem_ids_iff.1 hm)
    split at h
    · next hset =>
      cases h
      simp only [Bool.and_eq_true, Bool.not_eq_true', List.isEmpty_eq_false_iff] at hset
      exact .setpoint hnew hset.1 hset.2
    · next hset =>
      have hset : a.isSetpoint = true → a.setArrays = [] := by
        intro hp
        simpa [hp] using hset
      split at h
      · next k hk =>
        cases h
        obtain ⟨hle, before, after, hsplit, hbefore⟩ := List.find?_eq_some_iff_append.1 hk
        refine .foreign hnew hset before k after hsplit (fun h hh => ?_) (by simpa using hle)
        simpa using hbefore h hh
      · cases h

theorem add_of_refuses (hs : Indexed s) {e : StoreError} (h : s.Refuses a e) :
    ∃ fault, s.add a = .error fault ∧ fault.toError = e := by
  unfold add
  cases h with
  | duplicate htaken =>
    rw [if_pos (hs.mem_ids_iff.1 htaken)]
    exact ⟨_, rfl, rfl⟩
  | setpoint hnew hset hlinks =>
    have hboth : (a.isSetpoint && !a.setArrays.isEmpty) = true := by simp [hset, hlinks]
    rw [if_neg (mt hs.mem_ids_iff.2 hnew), if_pos hboth]
    exact ⟨_, rfl, rfl⟩
  | foreign hnew hset before k after hsplit hbefore hk =>
    have hnot : ¬(a.isSetpoint && !a.setArrays.isEmpty) = true := by
      intro hboth
      simp only [Bool.and_eq_true, Bool.not_eq_true', List.isEmpty_eq_false_iff] at hboth
      exact hboth.2 (hset hboth.1)
    have hfind : (a.setArrays.find? fun h => decide (s.size ≤ h.index)) = some k := by
      refine List.find?_eq_some_iff_append.2 ⟨by simpa using hk, before, after, hsplit, ?_⟩
      intro h hh
      simpa using hbefore h hh
    rw [if_neg (mt hs.mem_ids_iff.2 hnew), if_neg hnot, hfind]
    exact ⟨_, rfl, rfl⟩

theorem step_add_eq_error_iff (hs : Indexed s) {e : StoreError} :
    (s.step arithmetic (.add a)).2 = .error e ↔ s.Refuses a e := by
  constructor
  · intro h
    by_cases ha : s.Accepts a
    · rw [step_add_of_accepts ha] at h
      cases h
    · obtain ⟨fault, hadd, hstep⟩ := step_add_of_not_accepts ha
      rw [hstep] at h
      cases h
      exact refuses_of_add hs hadd
  · intro h
    obtain ⟨fault, hadd, rfl⟩ := add_of_refuses hs h
    rw [DataSet.step, hadd]

theorem exists_step_add_eq_error_iff (hs : Indexed s) :
    (∃ e, (s.step arithmetic (.add a)).2 = .error e) ↔ s.Barred a := by
  rw [barred_iff hs]
  constructor
  · rintro ⟨e, he⟩ ha
    rw [step_add_of_accepts ha] at he
    cases he
  · intro ha
    obtain ⟨fault, -, hstep⟩ := step_add_of_not_accepts ha
    exact ⟨fault.toError, by rw [hstep]⟩

/-! ## Both, in every state of a run -/

/-- In whatever state a data set is, a run of which every second pass finds its ids can do without
the steps that fail: the data set and the answers to the other steps are the same. In the state that
it reaches, an array is refused exactly if its id is taken, or it is an independent variable with
set arrays, or one of its set arrays is not there, with the failure that says so; it then leaves the
data set as it is, and otherwise it is added. -/
theorem failures_leave_no_trace (arithmetic : Arithmetic) (location : String) (disk : Disk)
    (earlier steps : List Step)
    (h : Follows arithmetic Settles (run arithmetic { location, disk } earlier).1 steps) :
    let s := (run arithmetic { location, disk } earlier).1
    let t := (s.run arithmetic steps).1
    s.run arithmetic (s.succeeded arithmetic steps) =
        (t, (s.run arithmetic steps).2.filter Except.isOk) ∧
      ∀ a, ((∃ e, (t.step arithmetic (.add a)).2 = .error e) ↔ t.Barred a) ∧
        (∀ e, (t.step arithmetic (.add a)).2 = .error e ↔ t.Refuses a e) ∧
        (t.Barred a → (t.step arithmetic (.add a)).1 = t) ∧
        (¬t.Barred a → t.step arithmetic (.add a) = (t.pushed a, .ok (.handle ⟨t.size⟩))) := by
  intro s t
  have ht : Indexed t := ((indexed_empty location disk).run earlier).run steps
  refine ⟨run_succeeded h, fun a => ⟨exists_step_add_eq_error_iff ht,
    fun e => step_add_eq_error_iff ht, fun hb => ?_, fun hb => ?_⟩⟩
  · obtain ⟨fault, -, hstep⟩ := step_add_of_not_accepts ((barred_iff ht).1 hb)
    rw [hstep]
  · apply step_add_of_accepts
    by_contra hn
    exact hb ((barred_iff ht).2 hn)

/-- The id is taken, a row index is beyond the end, an independent variable has a set array, and a
set array is not there; all else succeeds. -/
def disturbedSteps : List Step :=
  [.add { id := "y" }, .write (.id "y") (.sample 7 ⟨0⟩),
    .add { id := "z", isSetpoint := true, setArrays := [⟨0⟩] },
    .add { id := "x", isSetpoint := true }, .add { id := "z", setArrays := [⟨1⟩, ⟨3⟩] },
    .linkByIds [(⟨0⟩, ["x", "x"])], .write (.handle ⟨1⟩) (.append [⟨0⟩])]

theorem failures_leave_no_trace_disturbedSteps :
    let s := (run .checked {} [.add { id := "y" }]).1
    Follows .checked Settles s disturbedSteps ∧ (s.succeeded .checked disturbedSteps).length = 3 ∧
      s.run .checked (s.succeeded .checked disturbedSteps) =
        ((s.run .checked disturbedSteps).1,
          (s.run .checked disturbedSteps).2.filter Except.isOk) := by
  have h : Follows .checked Settles (run .checked {} [.add { id := "y" }]).1 disturbedSteps := by
    decide
  exact ⟨h, by decide,
    (failures_leave_no_trace .checked "" {} [.add { id := "y" }] disturbedSteps h).1⟩

end ArrayStore.DataSet
