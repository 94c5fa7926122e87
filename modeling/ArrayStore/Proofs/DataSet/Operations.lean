import ArrayStore.DataSet.Run
import Mathlib.Tactic.Common

/-!
# What the operations on a data set do

Each operation once: what it asks for, and what it makes of the handles and arrays.

* `Accepts`, `pushed`, `add_eq_ok_iff` : adding, with `get?_pushed` and `handle?_pushed`;
* `put`, `get?_put` : another array in the place of one;
* `get?_link`, `handlesOf_eq_ok`, `handlesOf_of_known`, `handlesOf_of_unknown` : linking, and the
  handles of ids;
* `Every` : what holds of every array, and what each operation asks for to keep it;
* `step_add_of_accepts`, `step_add_of_not_accepts`, `step_write_cases`, `step_cases` : all that a
  step can do;
* `Follows`, `run_invariant` : what every allowed step keeps, every run of allowed steps keeps.
-/

namespace ArrayStore

theorem Handle.index_eq_iff {h k : Handle} : h.index = k.index ↔ h = k := by
  cases h
  cases k
  simp

namespace DataSet
variable {arithmetic : Arithmetic} {s t : DataSet}

theorem mem_arrays_iff {a : DataArray} : a ∈ s.arrays ↔ ∃ h, s.get? h = some a := by
  rw [List.mem_iff_getElem?]
  exact ⟨fun ⟨i, hi⟩ => ⟨⟨i⟩, hi⟩, fun ⟨h, hh⟩ => ⟨h.index, hh⟩⟩

theorem isSome_get?_iff {h : Handle} : (s.get? h).isSome = true ↔ h.index < s.size := by
  rw [get?, isSome_getElem?, size]

theorem lt_of_get? {h : Handle} {a : DataArray} (ha : s.get? h = some a) : h.index < s.size := by
  apply isSome_get?_iff.1
  rw [ha]
  rfl

/-! ## Adding -/

/-- The data set takes the array. -/
structure Accepts (s : DataSet) (a : DataArray) : Prop where
  fresh : s.handle? a.id = none
  setpoint : a.isSetpoint = true → a.setArrays = []
  known : ∀ h ∈ a.setArrays, h.index < s.size

def pushed (s : DataSet) (a : DataArray) : DataSet :=
  { s with arrays := s.arrays ++ [a], index := Keyed.insert a.id ⟨s.size⟩ s.index }

theorem add_eq_ok_iff {a : DataArray} : s.add a = .ok t ↔ s.Accepts a ∧ t = s.pushed a := by
  unfold add
  constructor
  · intro h
    split at h
    · cases h
    · next hfresh =>
      split at h
      · cases h
      · next hset =>
        split at h
        · cases h
        · next hknown =>
          refine ⟨⟨by simpa using hfresh, fun hp => by simpa [hp] using hset, fun k hk => ?_⟩,
            (Except.ok.inj h).symm⟩
          simpa using List.find?_eq_none.1 hknown k hk
  · rintro ⟨⟨hfresh, hset, hknown⟩, rfl⟩
    have hset' : (a.isSetpoint && !a.setArrays.isEmpty) = false := by
      cases hp : a.isSetpoint with
      | false => rfl
      | true => simp [hset hp]
    have hknown' : (a.setArrays.find? fun h => s.size ≤ h.index) = none :=
      List.find?_eq_none.2 fun k hk => by simpa using hknown k hk
    rw [hfresh, hset', hknown']
    rfl

theorem size_pushed (s : DataSet) (a : DataArray) : (s.pushed a).size = s.size + 1 :=
  List.length_append

/-- The new array stands behind all others, which keep their handles. -/
theorem get?_pushed (s : DataSet) (a : DataArray) (h : Handle) :
    (s.pushed a).get? h = if h.index = s.size then some a else s.get? h := by
  show (s.arrays ++ [a])[h.index]? = if h.index = s.arrays.length then _ else s.arrays[h.index]?
  rcases Nat.lt_trichotomy h.index s.arrays.length with hlt | heq | hgt
  · rw [List.getElem?_append_left hlt, if_neg (Nat.ne_of_lt hlt)]
  · rw [heq, List.getElem?_concat_length, if_pos rfl]
  · rw [if_neg (Nat.ne_of_gt hgt), List.getElem?_eq_none (Nat.le_of_lt hgt), List.getElem?_eq_none]
    rw [List.length_append, List.length_singleton]
    exact hgt

theorem handle?_pushed (s : DataSet) (a : DataArray) (id : String) :
    (s.pushed a).handle? id = if id = a.id then some ⟨s.size⟩ else s.handle? id :=
  Keyed.find?_insert a.id id (Handle.mk s.size) s.index

/-! ## Writing -/

def put (s : DataSet) (h : Handle) (a : DataArray) : DataSet :=
  { s with arrays := s.arrays.set h.index a }

theorem size_put (s : DataSet) (h : Handle) (a : DataArray) : (s.put h a).size = s.size :=
  List.length_set

theorem get?_put {h : Handle} {a : DataArray} (ha : s.get? h = some a) (b : DataArray)
    (k : Handle) : (s.put h b).get? k = if k = h then some b else s.get? k := by
  have hlt : h.index < s.arrays.length := lt_of_get? ha
  show (s.arrays.set h.index b)[k.index]? = _
  rw [List.getElem?_set]
  by_cases hk : k = h
  · rw [if_pos hk, if_pos (congrArg Handle.index hk.symm), if_pos hlt]
  · rw [if_neg hk, if_neg fun he => hk (Handle.index_eq_iff.1 he).symm]
    rfl

/-! ## Linking -/

theorem get?_link (s : DataSet) (h k : Handle) (setArrays : List Handle) :
    (s.link h setArrays).get? k =
      (s.get? k).map fun a => if k = h then a.linkTo setArrays else a := by
  unfold link get?
  rw [List.getElem?_modify]
  simp only [Handle.index_eq_iff, eq_comm (a := h)]
  rfl

theorem size_link (s : DataSet) (h : Handle) (setArrays : List Handle) :
    (s.link h setArrays).size = s.size := List.length_modify ..

/-- All ids were found. -/
theorem handlesOf_eq_ok {ids : List String} {handles : List Handle}
    (h : s.handlesOf ids = .ok handles) : ids.map s.handle? = handles.map some := by
  induction ids generalizing handles with
  | nil =>
    cases h
    rfl
  | cons id ids ih =>
    unfold handlesOf at h
    split at h
    · cases h
    · next k hk =>
      cases hids : s.handlesOf ids with
      | error missing => rw [hids] at h; cases h
      | ok found =>
        rw [hids] at h
        cases h
        rw [List.map_cons, List.map_cons, hk, ih hids]

theorem handlesOf_of_known {ids : List String} (h : ∀ id ∈ ids, (s.handle? id).isSome = true) :
    s.handlesOf ids = .ok (ids.filterMap s.handle?) := by
  induction ids with
  | nil => rfl
  | cons id ids ih =>
    obtain ⟨hid, h⟩ := List.forall_mem_cons.1 h
    obtain ⟨k, hk⟩ := Option.isSome_iff_exists.1 hid
    rw [handlesOf, hk, ih h, List.filterMap_cons_some hk]
    rfl

theorem handlesOf_of_unknown {found more : List String} {missing : String}
    (hfound : ∀ id ∈ found, (s.handle? id).isSome = true) (hmissing : s.handle? missing = none) :
    s.handlesOf (found ++ missing :: more) = .error missing := by
  induction found with
  | nil => rw [List.nil_append, handlesOf, hmissing]
  | cons id found ih =>
    obtain ⟨hid, hfound⟩ := List.forall_mem_cons.1 hfound
    obtain ⟨k, hk⟩ := Option.isSome_iff_exists.1 hid
    rw [List.cons_append, handlesOf, hk, ih hfound]
    rfl

/-! ## What holds of every array -/

section Every
variable {P : Nat → Handle → DataArray → Prop}

/-- Every array has a property, which may speak of its handle and of the number of arrays. -/
def Every (P : Nat → Handle → DataArray → Prop) (s : DataSet) : Prop :=
  ∀ h a, s.get? h = some a → P s.size h a

theorem Every.pushed (hs : Every P s) {a : DataArray}
    (hgrow : ∀ h b, P s.size h b → P (s.size + 1) h b) (ha : P (s.size + 1) ⟨s.size⟩ a) :
    Every P (s.pushed a) := by
  intro h b hb
  rw [size_pushed]
  rw [get?_pushed] at hb
  split at hb
  · next hh =>
    cases hb
    rwa [show h = ⟨s.size⟩ from Handle.index_eq_iff.1 hh]
  · exact hgrow h b (hs h b hb)

theorem Every.put (hs : Every P s) {h : Handle} {a b : DataArray} (ha : s.get? h = some a)
    (hb : P s.size h b) : Every P (s.put h b) := by
  intro k c hc
  rw [size_put]
  rw [get?_put ha] at hc
  split at hc
  · next hk =>
    cases hc
    rwa [hk]
  · exact hs k c hc

theorem Every.link (hs : Every P s) {h : Handle} {setArrays : List Handle}
    (hh : ∀ a, s.get? h = some a → P s.size h (a.linkTo setArrays)) :
    Every P (s.link h setArrays) := by
  intro k b hb
  rw [size_link]
  rw [get?_link] at hb
  obtain ⟨a, ha, rfl⟩ := Option.map_eq_some_iff.1 hb
  split
  · next hk =>
    rw [hk] at ha ⊢
    exact hh a ha
  · exact hs k a ha

end Every

/-! ## Steps and runs -/

theorem step_add_of_accepts {a : DataArray} (ha : s.Accepts a) :
    s.step arithmetic (.add a) = (s.pushed a, .ok (.handle ⟨s.size⟩)) := by
  rw [DataSet.step, add_eq_ok_iff.2 ⟨ha, rfl⟩]

theorem step_add_of_not_accepts {a : DataArray} (ha : ¬s.Accepts a) :
    ∃ fault, s.add a = .error fault ∧ s.step arithmetic (.add a) = (s, .error fault.toError) := by
  cases hadd : s.add a with
  | ok t => exact absurd (add_eq_ok_iff.1 hadd).1 ha
  | error fault => exact ⟨fault, rfl, by rw [DataSet.step, hadd]⟩

/-- A target of no array writes nothing; the array of any other is written, or it refuses. -/
theorem step_write_cases (arithmetic : Arithmetic) (s : DataSet) (target : Target)
    (w : DataArray.Write) :
    (s.find? target = none ∧ s.step arithmetic (.write target w) = (s, .ok (.array none))) ∨
      ∃ h a, s.handleOf target = some h ∧ s.get? h = some a ∧
        ((∃ b, a.write arithmetic w = .ok b ∧
            s.step arithmetic (.write target w) = (s.put h b, .ok (.array (some b)))) ∨
          ∃ fault, a.write arithmetic w = .error fault ∧
            s.step arithmetic (.write target w) = (s, .error fault.toError)) := by
  unfold find?
  cases hh : s.handleOf target with
  | none =>
    left
    rw [DataSet.step, hh]
    exact ⟨rfl, rfl⟩
  | some h =>
    rw [DataSet.step, hh, Option.bind_some]
    cases ha : s.get? h with
    | none =>
      have hw : s.write arithmetic h w = .ok s := by
        unfold DataSet.write
        rw [ha]
      left
      simp only [hw, ha, and_self]
    | some a =>
      right
      refine ⟨h, a, rfl, ha, ?_⟩
      cases hb : a.write arithmetic w with
      | ok b =>
        have hw : s.write arithmetic h w = .ok (s.put h b) := by
          unfold DataSet.write
          rw [ha]
          simp only [hb]
          rfl
        have hget : (s.put h b).get? h = some b := by rw [get?_put ha, if_pos rfl]
        left
        refine ⟨b, rfl, ?_⟩
        simp only [hw, hget]
      | error fault =>
        have hw : s.write arithmetic h w = .error fault := by
          unfold DataSet.write
          rw [ha]
          simp only [hb]
          rfl
        right
        refine ⟨fault, rfl, ?_⟩
        simp only [hw]

theorem run_cons (arithmetic : Arithmetic) (s : DataSet) (step : Step) (steps : List Step) :
    s.run arithmetic (step :: steps) =
      (((s.step arithmetic step).1.run arithmetic steps).1,
        (s.step arithmetic step).2 :: ((s.step arithmetic step).1.run arithmetic steps).2) := rfl

/-- All that a step can do. -/
theorem step_cases (arithmetic : Arithmetic) (s : DataSet) (step : Step) :
    (s.step arithmetic step).1 = s ∨
      (∃ a, step = .add a ∧ s.Accepts a ∧ (s.step arithmetic step).1 = s.pushed a) ∨
      (∃ target w h a b, step = .write target w ∧ s.handleOf target = some h ∧
        s.get? h = some a ∧ a.write arithmetic w = .ok b ∧ (s.step arithmetic step).1 = s.put h b) ∨
      ∃ pending, step = .linkByIds pending ∧
        (s.step arithmetic step).1 = (s.linkByIds pending).1 := by
  cases step with
  | add a =>
    by_cases ha : s.Accepts a
    · rw [step_add_of_accepts ha]
      exact Or.inr (Or.inl ⟨a, rfl, ha, rfl⟩)
    · obtain ⟨fault, -, hstep⟩ := step_add_of_not_accepts ha
      rw [hstep]
      exact Or.inl rfl
  | write target w =>
    rcases s.step_write_cases arithmetic target w with
      ⟨-, he⟩ | ⟨h, a, hh, ha, ⟨b, hb, he⟩ | ⟨fault, -, he⟩⟩ <;> rw [he]
    · exact Or.inl rfl
    · exact Or.inr (Or.inr (Or.inl ⟨target, w, h, a, b, rfl, hh, ha, hb, rfl⟩))
    · exact Or.inl rfl
  | linkByIds pending =>
    refine Or.inr (Or.inr (Or.inr ⟨pending, rfl, ?_⟩))
    rw [DataSet.step]
    split
    · next t ht => rw [ht]
    · next t unresolved ht => rw [ht]

/-- Every step of the run is allowed in the state in which it is taken. -/
def Follows (arithmetic : Arithmetic) (allowed : DataSet → Step → Prop) (s : DataSet) :
    List Step → Prop
  | [] => True
  | step :: steps => allowed s step ∧ Follows arithmetic allowed (s.step arithmetic step).1 steps

instance Follows.decidable {allowed : DataSet → Step → Prop}
    [h : ∀ s step, Decidable (allowed s step)] :
    (s : DataSet) → (steps : List Step) → Decidable (Follows arithmetic allowed s steps)
  | _, [] => .isTrue trivial
  | s, step :: steps =>
    have := Follows.decidable (h := h) (s.step arithmetic step).1 steps
    inferInstanceAs
      (Decidable (allowed s step ∧ Follows arithmetic allowed (s.step arithmetic step).1 steps))

theorem Follows.take {allowed : DataSet → Step → Prop} {steps : List Step}
    (h : Follows arithmetic allowed s steps) (count : Nat) :
    Follows arithmetic allowed s (steps.take count) := by
  induction steps generalizing s count with
  | nil =>
    rw [List.take_nil]
    trivial
  | cons step steps ih =>
    cases count with
    | zero => trivial
    | succ count => exact ⟨h.1, ih h.2 count⟩

/-- What every allowed step keeps, a run of allowed steps keeps. -/
theorem run_invariant {allowed : DataSet → Step → Prop} {P : DataSet → Prop}
    (hstep : ∀ s step, P s → allowed s step → P (s.step arithmetic step).1) (hs : P s)
    {steps : List Step} (h : Follows arithmetic allowed s steps) :
    P (s.run arithmetic steps).1 := by
  induction steps generalizing s with
  | nil => exact hs
  | cons step steps ih => exact ih (hstep s step hs h.1) h.2

end DataSet

end ArrayStore
