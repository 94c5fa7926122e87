import ArrayStore.Proofs.DataSet.Indexing

/-!
# Added arrays stay as they are, except for their samples

* `Step.IsDirect` : adding an array, or writing samples; the second pass is neither;
* `Remeasured` : an array with other samples;
* `Extends` : every array is still behind its handle; `extends_step`, `extends_run`;
* `get?_step_write` : what a write does to each array of the data set;
* `added`, `handles` : the arrays that a run adds, and the handles that it answers;
* `added_run` : the arrays are behind their handles, in the order of adding;
* `run_added` : and so they stay, whatever else is added and written.
-/

namespace ArrayStore

namespace DataArray

/-- The same array with other samples. -/
def Remeasured (a b : DataArray) : Prop := b = { a with samples := b.samples }

theorem Remeasured.refl (a : DataArray) : Remeasured a a := rfl

theorem Remeasured.trans {a b c : DataArray} (hab : Remeasured a b) (hbc : Remeasured b c) :
    Remeasured a c := by
  unfold Remeasured at hab hbc ⊢
  rw [hbc, hab]

section Write
variable {arithmetic : Arithmetic} {a b : DataArray} {w : Write}

theorem remeasured_of_write (h : a.write arithmetic w = .ok b) : Remeasured a b := by
  obtain ⟨samples, rfl⟩ := write_eq_ok h
  rfl

theorem stepped_write_of_ok (h : a.write arithmetic w = .ok b) :
    a.stepped arithmetic (.write w) = b := by
  have hstep : a.step arithmetic (.write w) = .ok b := h
  unfold stepped
  rw [hstep]

theorem stepped_write_of_error {fault : Fault} (h : a.write arithmetic w = .error fault) :
    a.stepped arithmetic (.write w) = a := by
  have hstep : a.step arithmetic (.write w) = .error fault := h
  unfold stepped
  rw [hstep]

theorem remeasured_stepped (arithmetic : Arithmetic) (a : DataArray) (w : Write) :
    Remeasured a (a.stepped arithmetic (.write w)) := by
  cases h : a.write arithmetic w with
  | ok b =>
    rw [stepped_write_of_ok h]
    exact remeasured_of_write h
  | error fault =>
    rw [stepped_write_of_error h]
    exact Remeasured.refl a

end Write

end DataArray

namespace DataSet
open DataArray (Remeasured)

variable {arithmetic : Arithmetic} {s t u : DataSet}

/-- The step adds an array or writes samples. -/
def Step.IsDirect : Step → Prop
  | .add _ | .write .. => True
  | .linkByIds _ => False

instance : (step : Step) → Decidable step.IsDirect
  | .add _ | .write .. => .isTrue trivial
  | .linkByIds _ => .isFalse id

/-! ## Nothing is removed or moved -/

/-- Every array is still behind its handle, with the samples that it has by now. -/
def Extends (s t : DataSet) : Prop :=
  ∀ k a, s.get? k = some a → ∃ b, t.get? k = some b ∧ Remeasured a b

theorem Extends.refl (s : DataSet) : Extends s s := fun _ a ha => ⟨a, ha, Remeasured.refl a⟩

theorem Extends.trans (hst : Extends s t) (htu : Extends t u) : Extends s u := by
  intro k a ha
  obtain ⟨b, hb, hab⟩ := hst k a ha
  obtain ⟨c, hc, hbc⟩ := htu k b hb
  exact ⟨c, hc, hab.trans hbc⟩

theorem extends_pushed (s : DataSet) (a : DataArray) : Extends s (s.pushed a) := by
  intro k b hb
  have hlt := lt_of_get? hb
  refine ⟨b, ?_, Remeasured.refl b⟩
  rw [get?_pushed, if_neg (Nat.ne_of_lt hlt)]
  exact hb

theorem extends_put {h : Handle} {a b : DataArray} (ha : s.get? h = some a)
    (hab : Remeasured a b) : Extends s (s.put h b) := by
  intro k c hc
  rw [get?_put ha]
  by_cases hk : k = h
  · subst hk
    rw [ha] at hc
    cases hc
    exact ⟨b, if_pos rfl, hab⟩
  · exact ⟨c, by rw [if_neg hk, hc], Remeasured.refl c⟩

theorem extends_step {step : Step} (h : step.IsDirect) :
    Extends s (s.step arithmetic step).1 := by
  rcases s.step_cases arithmetic step with he | ⟨a, -, -, he⟩ | ⟨-, w, k, a, b, -, -, ha, hb, he⟩ |
    ⟨pending, rfl, -⟩
  · rw [he]
    exact Extends.refl s
  · rw [he]
    exact extends_pushed s a
  · rw [he]
    exact extends_put ha (DataArray.remeasured_of_write hb)
  · exact h.elim

theorem extends_run {steps : List Step} (h : ∀ step ∈ steps, step.IsDirect) :
    Extends s (s.run arithmetic steps).1 := by
  induction steps generalizing s with
  | nil => exact Extends.refl s
  | cons step steps ih =>
    obtain ⟨hstep, h⟩ := List.forall_mem_cons.1 h
    exact (extends_step hstep).trans (ih h)

/-! ## What a write does -/

section Write
variable (arithmetic : Arithmetic) (s : DataSet) (target : Target) (w : DataArray.Write)

/-- The array that the target names is written, and no other changes. -/
theorem get?_step_write (k : Handle) :
    (s.step arithmetic (.write target w)).1.get? k =
      (s.get? k).map fun a => if s.handleOf target = some k then a.stepped arithmetic (.write w)
        else a := by
  have hother : ∀ h, k ≠ h → s.get? k = (s.get? k).map fun a =>
      if some h = some k then a.stepped arithmetic (.write w) else a := by
    intro h hk
    have hne : some h ≠ some k := fun hs => hk (Option.some.inj hs).symm
    simp only [if_neg hne]
    exact (Option.map_id' ..).symm
  rcases s.step_write_cases arithmetic target w with
    ⟨hf, he⟩ | ⟨h, a, hh, ha, ⟨b, hb, he⟩ | ⟨fault, hb, he⟩⟩
  · rw [he]
    cases ha : s.get? k with
    | none => rfl
    | some a =>
      have hk : s.handleOf target ≠ some k := by
        intro hk
        unfold find? at hf
        rw [hk, Option.bind_some, ha] at hf
        cases hf
      rw [Option.map_some, if_neg hk]
  · rw [he, get?_put ha, hh]
    by_cases hk : k = h
    · subst hk
      rw [if_pos rfl, ha, Option.map_some, if_pos rfl, DataArray.stepped_write_of_ok hb]
    · rw [if_neg hk]
      exact hother h hk
  · rw [he, hh]
    by_cases hk : k = h
    · subst hk
      rw [ha, Option.map_some, if_pos rfl, DataArray.stepped_write_of_error hb]
    · exact hother h hk

/-- A write leaves the index alone. -/
theorem handle?_step_write (id : String) :
    (s.step arithmetic (.write target w)).1.handle? id = s.handle? id := by
  rcases s.step_write_cases arithmetic target w with
    ⟨-, he⟩ | ⟨h, a, -, -, ⟨b, -, he⟩ | ⟨fault, -, he⟩⟩ <;> rw [he]
  rfl

theorem size_step_write : (s.step arithmetic (.write target w)).1.size = s.size := by
  rcases s.step_write_cases arithmetic target w with
    ⟨-, he⟩ | ⟨h, a, -, -, ⟨b, -, he⟩ | ⟨fault, -, he⟩⟩ <;> rw [he]
  exact size_put s h b

end Write

/-! ## The arrays that a run adds -/

/-- The array that a step adds, if its answer is no failure. -/
def addedBy? : Step × Except StoreError Answer → Option DataArray
  | (.add a, .ok _) => some a
  | _ => none

/-- The arrays that a run adds, in order. -/
def added (arithmetic : Arithmetic) (s : DataSet) (steps : List Step) : List DataArray :=
  (steps.zip (s.run arithmetic steps).2).filterMap addedBy?

def answeredHandle? : Except StoreError Answer → Option Handle
  | .ok (.handle h) => some h
  | _ => none

/-- The handles among the answers of a run. -/
def handles (answers : List (Except StoreError Answer)) : List Handle :=
  answers.filterMap answeredHandle?

theorem added_add_of_accepts {a : DataArray} {steps : List Step} (ha : s.Accepts a) :
    s.added arithmetic (.add a :: steps) = a :: (s.pushed a).added arithmetic steps := by
  unfold added
  rw [run_cons, step_add_of_accepts ha]
  rfl

theorem added_add_of_not_accepts {a : DataArray} {steps : List Step} (ha : ¬s.Accepts a) :
    s.added arithmetic (.add a :: steps) = s.added arithmetic steps := by
  obtain ⟨fault, -, hstep⟩ := step_add_of_not_accepts ha
  unfold added
  rw [run_cons, hstep]
  rfl

theorem added_write (s : DataSet) (target : Target) (w : DataArray.Write) (steps : List Step) :
    s.added arithmetic (.write target w :: steps) =
      (s.step arithmetic (.write target w)).1.added arithmetic steps := rfl

theorem answeredHandle?_write (s : DataSet) (target : Target) (w : DataArray.Write) :
    answeredHandle? (s.step arithmetic (.write target w)).2 = none := by
  rcases s.step_write_cases arithmetic target w with
    ⟨-, he⟩ | ⟨h, a, -, -, ⟨b, -, he⟩ | ⟨fault, -, he⟩⟩ <;> rw [he] <;> rfl

/-- The arrays that a run adds are behind the handles that it answers, which go on from the size. -/
structure IsAdded (s : DataSet) (arrays : List DataArray) (answered : List Handle)
    (t : DataSet) : Prop where
  handles : answered = (List.range' s.size arrays.length).map Handle.mk
  size : t.size = s.size + arrays.length
  get : ∀ n (hn : n < arrays.length), ∃ b, t.get? ⟨s.size + n⟩ = some b ∧ Remeasured arrays[n] b

theorem added_run (arithmetic : Arithmetic) {steps : List Step}
    (h : ∀ step ∈ steps, step.IsDirect) :
    IsAdded s (s.added arithmetic steps) (handles (s.run arithmetic steps).2)
      (s.run arithmetic steps).1 := by
  induction steps generalizing s with
  | nil => exact ⟨rfl, rfl, fun n hn => absurd hn (Nat.not_lt_zero n)⟩
  | cons step steps ih =>
    obtain ⟨hstep, hrest⟩ := List.forall_mem_cons.1 h
    cases step with
    | add a =>
      by_cases ha : s.Accepts a
      · obtain ⟨hhandles, hsize, hget⟩ := ih (s := s.pushed a) hrest
        rw [size_pushed] at hhandles hsize hget
        rw [run_cons, step_add_of_accepts ha, added_add_of_accepts ha]
        refine ⟨?_, ?_, fun n hn => ?_⟩
        · show ⟨s.size⟩ :: handles _ = _
          rw [hhandles, List.length_cons, List.range'_succ, List.map_cons]
        · rw [hsize, List.length_cons]
          omega
        · cases n with
          | zero =>
            -- the array itself, and whatever is written to it later
            have hnew : (s.pushed a).get? ⟨s.size⟩ = some a := by
              rw [get?_pushed, if_pos rfl]
            exact extends_run hrest _ a hnew
          | succ n =>
            have hn' : n < ((s.pushed a).added arithmetic steps).length := Nat.lt_of_succ_lt_succ hn
            have hindex : s.size + (n + 1) = s.size + 1 + n := by omega
            rw [hindex]
            exact hget n hn'
      · obtain ⟨fault, -, hrefused⟩ := step_add_of_not_accepts ha
        rw [run_cons, hrefused, added_add_of_not_accepts ha]
        exact ih hrest
    | write target w =>
      obtain ⟨hhandles, hsize, hget⟩ := ih (s := (s.step arithmetic (.write target w)).1) hrest
      rw [size_step_write] at hhandles hsize hget
      rw [added_write]
      refine ⟨?_, hsize, hget⟩
      rw [run_cons, handles, List.filterMap_cons_none (answeredHandle?_write s target w)]
      exact hhandles
    | linkByIds pending => exact hstep.elim

/-- The arrays that a run adds have the handles 0, 1, 2 and so on. Whatever is added and written
after it, each stays behind its handle as it was added, except for its samples, and so does every
other array that was there; a write changes the samples of the array that it names and nothing
else, and an id names the same array as its handle. -/
theorem run_added (arithmetic : Arithmetic) (location : String) (disk : Disk)
    (steps more : List Step) (hsteps : ∀ step ∈ steps, step.IsDirect)
    (hmore : ∀ step ∈ more, step.IsDirect) :
    let start : DataSet := { location, disk }
    let s := (start.run arithmetic steps).1
    let t := (s.run arithmetic more).1
    let arrays := start.added arithmetic steps
    handles (start.run arithmetic steps).2 = (List.range arrays.length).map Handle.mk ∧
      s.size = arrays.length ∧
      (∀ n (hn : n < arrays.length), ∃ b, t.get? ⟨n⟩ = some b ∧ Remeasured arrays[n] b) ∧
      (∀ k a, s.get? k = some a → ∃ b, t.get? k = some b ∧ Remeasured a b) ∧
      (∀ target w k, (t.step arithmetic (.write target w)).1.get? k = (t.get? k).map fun a =>
        if t.handleOf target = some k then
          { a with samples := (a.stepped arithmetic (.write w)).samples }
        else a) ∧
      (∀ target w id, (t.step arithmetic (.write target w)).1.handle? id = t.handle? id) ∧
      (∀ k a w, t.get? k = some a →
        t.step arithmetic (.write (.id a.id) w) = t.step arithmetic (.write (.handle k) w)) ∧
      ∀ id k w, t.handle? id = some k →
        t.step arithmetic (.write (.id id) w) = t.step arithmetic (.write (.handle k) w) := by
  intro start s t arrays
  have hindexed : Indexed t := ((indexed_empty location disk).run steps).run more
  have hadded : IsAdded start arrays (handles (start.run arithmetic steps).2) s :=
    added_run arithmetic hsteps
  have hlater : Extends s t := extends_run hmore
  have hsize : start.size = 0 := rfl
  have hsame : ∀ id k w, t.handle? id = some k →
      t.step arithmetic (.write (.id id) w) = t.step arithmetic (.write (.handle k) w) := by
    intro id k w hk
    have hof : t.handleOf (.id id) = t.handleOf (.handle k) := hk
    rw [DataSet.step, DataSet.step, hof]
  refine ⟨?_, ?_, fun n hn => ?_, hlater, fun target w k => ?_, handle?_step_write arithmetic t,
    fun k a w ha => hsame a.id k w (hindexed.handle?_of_get? ha), hsame⟩
  · rw [hadded.handles, hsize, List.range_eq_range']
  · rw [hadded.size, hsize, Nat.zero_add]
  · obtain ⟨b, hb, hab⟩ := hadded.get n hn
    rw [hsize, Nat.zero_add] at hb
    obtain ⟨c, hc, hbc⟩ := hlater _ b hb
    exact ⟨c, hc, hab.trans hbc⟩
  · rw [get?_step_write]
    congr 1
    funext a
    split
    · exact DataArray.remeasured_stepped arithmetic a w
    · rfl

/-- Two arrays are added and one is refused. -/
def sweepSteps : List Step :=
  [.add { id := "y", givenLabel := some "Y" }, .add { id := "x", isSetpoint := true },
    .add { id := "y" }, .write (.id "y") (.append [⟨0⟩])]

/-- A refused write, another array, and a write by id. -/
def laterSteps : List Step :=
  [.write (.handle ⟨1⟩) (.sample 5 ⟨0⟩), .add { id := "z", setArrays := [⟨0⟩] },
    .write (.id "y") (.sample 0 ⟨1⟩)]

theorem run_added_sweepSteps :
    (∀ step ∈ sweepSteps, step.IsDirect) ∧ (∀ step ∈ laterSteps, step.IsDirect) ∧
      handles (run .checked {} sweepSteps).2 = [⟨0⟩, ⟨1⟩] ∧
      ∃ b, ((run .checked {} sweepSteps).1.run .checked laterSteps).1.get? ⟨0⟩ = some b ∧
        Remeasured { id := "y", givenLabel := some "Y" } b := by
  have hsteps : ∀ step ∈ sweepSteps, step.IsDirect := by decide
  have hlater : ∀ step ∈ laterSteps, step.IsDirect := by decide
  obtain ⟨hhandles, -, hget, -⟩ := run_added .checked "" {} sweepSteps laterSteps hsteps hlater
  exact ⟨hsteps, hlater, hhandles.trans (by decide), hget 0 (by decide)⟩

end DataSet

end ArrayStore
