import ArrayStore.Proofs.DataArray.FirstNaN
import Mathlib.Data.List.Pairwise
import Mathlib.Data.List.Nodup

/-!
# Building in any order

Before samples are given, an array is its outline: the metadata and a number of rows. A step of
the building sets one aspect of the outline, and steps on different aspects may change places. The
samples of an outline are allocated on the way, so they have to fit a buffer.

* `Outline`, `Outline.array` : the outline, and the unmeasured array of it;
* `Outline.Fits` : its samples fit a buffer;
* `Outline.add`, `step_array`, `foldlM_array` : in either build, a step to an outline that fits is
  the step on outlines;
* `of_step_array_checked`, `of_foldlM_array_checked` : with checks no other step succeeds;
* `Step.aspect`, `Outline.add_right_comm`, `foldl_add_perm` : steps in any order;
* `Choice` : what may be given of an array, each at most once; `Choice.steps`, `Choice.outline` :
  the steps that give it, and what they come to;
* `Outline.Within` : no more rows and no more columns, so that less has to be allocated;
* `build_perm` : every order of the steps builds the same array, if it can be held at all;
* `exists_build_ne` : else the orders may differ.
-/

namespace ArrayStore.DataArray

/-! ## Outlines -/

/-- An array before samples are given. -/
structure Outline where
  name : Option String := none
  label : Option String := none
  units : List String := []
  isSetpoint : Bool := false
  setArrays : List Handle := []
  rowCount : Nat := 0

namespace Outline

/-- The array of the outline, with NaN in all rows. -/
def array (o : Outline) (id : String) : DataArray where
  id := id
  givenName := o.name
  givenLabel := o.label
  units := o.units
  isSetpoint := o.isSetpoint
  setArrays := o.setArrays
  samples := List.replicate (o.rowCount * widthOf o.units) Double.nan

/-- The samples of the outline fit a buffer. -/
def Fits (o : Outline) : Prop := o.rowCount * widthOf o.units ≤ maxSamples

instance (o : Outline) : Decidable o.Fits := inferInstanceAs (Decidable (_ ≤ _))

/-- The outline after a step. Samples are no part of it. -/
def add (o : Outline) : Step → Outline
  | .name value => { o with name := some value }
  | .label value => { o with label := some value }
  | .units value => { o with units := value }
  | .setpoint => { o with isSetpoint := true, setArrays := [] }
  | .setArrays value => { o with setArrays := value }
  | .allocate rows => { o with rowCount := rows }
  | .samples _ | .write _ => o

variable (o : Outline) (id : String)

theorem rowCount_array : (o.array id).rowCount = o.rowCount := by
  have hwidth : 0 < widthOf o.units := (o.array id).width_pos
  show (List.replicate (o.rowCount * widthOf o.units) Double.nan).length / widthOf o.units = _
  rw [List.length_replicate, Nat.mul_div_cancel _ hwidth]

theorem all_isNaN_array : (o.array id).samples.all Double.isNaN = true := by
  rw [List.all_eq_true]
  intro x hx
  rw [List.eq_of_mem_replicate hx, Double.isNaN_nan]

/-- The first sample, if there is one, is NaN already. -/
theorem measuredRows_array : (o.array id).measuredRows = 0 := by
  have hfirst : (o.array id).firstNaN = 0 := by
    show (List.replicate (o.rowCount * widthOf o.units) Double.nan).findIdx Double.isNaN = 0
    cases o.rowCount * widthOf o.units with
    | zero => rfl
    | succ n => rw [List.replicate_succ, List.findIdx_cons, Double.isNaN_nan]; rfl
  rw [measuredRows_eq_div, hfirst, Nat.zero_div]

end Outline

/-! ## Steps on outlines -/

/-- What a step gives of an array. -/
inductive Aspect where
  | name
  | label
  | units
  | rows
  /-- Independent, or measured against other arrays. -/
  | role
  | samples
  deriving DecidableEq, Repr

def Step.aspect : Step → Aspect
  | .name _ => .name
  | .label _ => .label
  | .units _ => .units
  | .allocate _ => .rows
  | .setpoint | .setArrays _ => .role
  | .samples _ | .write _ => .samples

/-- The units find all rows unmeasured. -/
theorem setUnits_array (arithmetic : Arithmetic) (o : Outline) (id : String)
    (units : List String) :
    (o.array id).setUnits arithmetic units =
      if widthOf units = widthOf o.units then .ok (({ o with units } : Outline).array id)
      else (unmeasured arithmetic o.rowCount (widthOf units)).map fun samples =>
        { o.array id with units, samples } := by
  unfold setUnits
  show (if widthOf units = widthOf o.units then _ else _) = _
  split
  · next hwidth => simp only [Outline.array, hwidth]
  · rw [if_pos (o.all_isNaN_array id), o.rowCount_array]

/-- In either build the samples are allocated if they fit a buffer. -/
theorem step_array (arithmetic : Arithmetic) {o : Outline} (id : String) {s : Step}
    (h : s.aspect ≠ .samples) (hfit : (o.add s).Fits) :
    (o.array id).step arithmetic s = .ok ((o.add s).array id) := by
  cases s with
  | name | label | setpoint | setArrays => rfl
  | allocate rows =>
    have hle : rows * (o.array id).width ≤ maxSamples := hfit
    rw [step, allocate, unmeasured_of_le arithmetic hle]
    rfl
  | units units =>
    have hle : o.rowCount * widthOf units ≤ maxSamples := hfit
    rw [step, setUnits_array]
    split
    · rfl
    · rw [unmeasured_of_le arithmetic hle]
      rfl
  | samples | write => exact absurd rfl h

/-- With checks, a step succeeds only if the samples fit a buffer. -/
theorem of_step_array_checked {o : Outline} {id : String} {s : Step} {a : DataArray}
    (h : s.aspect ≠ .samples) (ho : o.Fits) (hstep : (o.array id).step .checked s = .ok a) :
    (o.add s).Fits ∧ a = (o.add s).array id := by
  have hadd : (o.add s).Fits := by
    by_contra hfit
    cases s with
    | name | label | setpoint | setArrays => exact hfit ho
    | allocate rows =>
      have hle : ¬rows * (o.array id).width ≤ maxSamples := hfit
      obtain ⟨fault, hfault⟩ := exists_unmeasured_checked_eq_error hle
      rw [step, allocate, hfault] at hstep
      cases hstep
    | units units =>
      have hle : ¬o.rowCount * widthOf units ≤ maxSamples := hfit
      obtain ⟨fault, hfault⟩ := exists_unmeasured_checked_eq_error hle
      rw [step, setUnits_array, hfault] at hstep
      split at hstep
      · next hwidth =>
        -- The number of columns is the same, and the rows fitted a buffer before.
        rw [hwidth] at hle
        exact hle ho
      · cases hstep
    | samples | write => exact absurd rfl h
  rw [step_array .checked id h hadd] at hstep
  exact ⟨hadd, (Except.ok.inj hstep).symm⟩

theorem foldlM_array (arithmetic : Arithmetic) {o : Outline} (id : String) {steps : List Step}
    (h : ∀ s ∈ steps, s.aspect ≠ .samples)
    (hfit : ∀ n, ((steps.take n).foldl Outline.add o).Fits) :
    steps.foldlM (step arithmetic) (o.array id) = .ok ((steps.foldl Outline.add o).array id) := by
  induction steps generalizing o with
  | nil => rfl
  | cons s steps ih =>
    obtain ⟨hs, h⟩ := List.forall_mem_cons.1 h
    rw [List.foldlM_cons, step_array arithmetic id hs (hfit 1)]
    exact ih h fun n => hfit (n + 1)

theorem of_foldlM_array_checked {o : Outline} {id : String} {steps : List Step} {a : DataArray}
    (h : ∀ s ∈ steps, s.aspect ≠ .samples) (ho : o.Fits)
    (hsteps : steps.foldlM (step .checked) (o.array id) = .ok a) :
    (steps.foldl Outline.add o).Fits := by
  induction steps generalizing o with
  | nil => exact ho
  | cons s steps ih =>
    obtain ⟨hs, h⟩ := List.forall_mem_cons.1 h
    rw [List.foldlM_cons] at hsteps
    cases hstep : (o.array id).step .checked s with
    | error fault =>
      rw [hstep] at hsteps
      cases hsteps
    | ok b =>
      obtain ⟨hadd, rfl⟩ := of_step_array_checked hs ho hstep
      rw [hstep] at hsteps
      exact ih h hadd hsteps

theorem Outline.fits_empty : Outline.Fits {} := by decide

/-- Steps on different aspects may change places. -/
theorem Outline.add_right_comm (o : Outline) {s t : Step} (h : s.aspect ≠ t.aspect) :
    (o.add s).add t = (o.add t).add s := by
  cases s <;> cases t <;> simp_all [Outline.add, Step.aspect]

/-- So may all steps of a list in which no aspect comes twice. -/
theorem foldl_add_perm {order steps : List Step} (h : order.Perm steps)
    (haspects : (steps.map Step.aspect).Nodup) (o : Outline) :
    order.foldl Outline.add o = steps.foldl Outline.add o := by
  have hpairs : steps.Pairwise fun s t => ∀ o : Outline, (o.add s).add t = (o.add t).add s :=
    (List.pairwise_map.1 haspects).imp fun hne o => o.add_right_comm hne
  have hcomm := hpairs.forall_of_forall_of_flip (fun _ _ _ => rfl)
    (hpairs.imp fun hst o => (hst o).symm)
  exact h.foldl_eq' (fun s hs t ht => hcomm (h.mem_iff.1 hs) (h.mem_iff.1 ht)) o

/-! ## Choices -/

/-- An independent variable, or measured against other arrays. -/
inductive Role where
  | setpoint
  | against (setArrays : List Handle)
  deriving DecidableEq, Repr

def Role.step : Role → Step
  | .setpoint => .setpoint
  | .against setArrays => .setArrays setArrays

theorem Role.aspect_step (role : Role) : role.step.aspect = .role := by cases role <;> rfl

@[simp] theorem Role.step_ne_units (role : Role) (units : List String) :
    role.step ≠ .units units := by cases role <;> nofun

@[simp] theorem Role.step_ne_allocate (role : Role) (rows : Nat) :
    role.step ≠ .allocate rows := by cases role <;> nofun

/-- What is given of an array before its samples, each at most once. -/
structure Choice where
  name : Option String := none
  label : Option String := none
  units : Option (List String) := none
  rows : Option Nat := none
  role : Option Role := none

namespace Choice

def steps (c : Choice) : List Step :=
  (c.name.map Step.name).toList ++ (c.label.map Step.label).toList ++
    (c.units.map Step.units).toList ++ (c.rows.map Step.allocate).toList ++
    (c.role.map Role.step).toList

def outline (c : Choice) : Outline where
  name := c.name
  label := c.label
  units := c.units.getD []
  isSetpoint := c.role == some .setpoint
  setArrays :=
    match c.role with
    | some (.against setArrays) => setArrays
    | _ => []
  rowCount := c.rows.getD 0

theorem foldl_steps (c : Choice) : c.steps.foldl Outline.add {} = c.outline := by
  obtain ⟨name, label, units, rows, role⟩ := c
  cases name <;> cases label <;> cases units <;> cases rows <;>
    rcases role with _ | _ | _ <;> rfl

theorem map_aspect_sublist {α : Type} (x : Option α) (give : α → Step) {aspect : Aspect}
    (h : ∀ value, (give value).aspect = aspect) :
    ((x.map give).toList.map Step.aspect).Sublist [aspect] := by
  cases x with
  | none => exact List.nil_sublist _
  | some value => rw [← h value]; exact List.Sublist.refl _

/-- The aspects that are given, in their order. -/
theorem map_aspect_steps_sublist (c : Choice) :
    (c.steps.map Step.aspect).Sublist [.name, .label, .units, .rows, .role] := by
  have hname := map_aspect_sublist c.name Step.name fun _ => rfl
  have hlabel := map_aspect_sublist c.label Step.label fun _ => rfl
  have hunits := map_aspect_sublist c.units Step.units fun _ => rfl
  have hrows := map_aspect_sublist c.rows Step.allocate fun _ => rfl
  have hrole := map_aspect_sublist c.role Role.step Role.aspect_step
  simp only [steps, List.map_append]
  exact (((hname.append hlabel).append hunits).append hrows).append hrole

theorem nodup_aspects (c : Choice) : (c.steps.map Step.aspect).Nodup :=
  c.map_aspect_steps_sublist.nodup (by decide)

theorem aspect_ne_samples {c : Choice} {s : Step} (h : s ∈ c.steps) : s.aspect ≠ .samples := by
  have hmem := c.map_aspect_steps_sublist.subset (List.mem_map_of_mem h)
  intro heq
  rw [heq] at hmem
  exact absurd hmem (by decide)

end Choice

/-! ## No order needs more -/

/-- No more rows and no more columns. -/
structure Outline.Within (o p : Outline) : Prop where
  rowCount : o.rowCount ≤ p.rowCount
  width : widthOf o.units ≤ widthOf p.units

theorem Choice.within_add {c : Choice} {o : Outline} (h : o.Within c.outline) {s : Step}
    (hs : s ∈ c.steps) : (o.add s).Within c.outline := by
  cases s with
  | units units =>
    have hunits : c.units = some units := by
      simpa [Choice.steps] using hs
    refine ⟨h.rowCount, ?_⟩
    show widthOf units ≤ widthOf (c.units.getD [])
    rw [hunits]
    exact Nat.le_refl _
  | allocate rows =>
    have hrows : c.rows = some rows := by
      simpa [Choice.steps] using hs
    refine ⟨?_, h.width⟩
    show rows ≤ c.rows.getD 0
    rw [hrows]
    exact Nat.le_refl _
  | name | label | setpoint | setArrays | samples | write => exact ⟨h.rowCount, h.width⟩

theorem Choice.within_foldl {c : Choice} {o : Outline} (h : o.Within c.outline) {steps : List Step}
    (hsteps : ∀ s ∈ steps, s ∈ c.steps) : (steps.foldl Outline.add o).Within c.outline := by
  induction steps generalizing o with
  | nil => exact h
  | cons s steps ih =>
    obtain ⟨hs, hsteps⟩ := List.forall_mem_cons.1 hsteps
    exact ih (Choice.within_add h hs) hsteps

theorem Choice.within_empty (c : Choice) : Outline.Within {} c.outline :=
  ⟨Nat.zero_le _, Nat.le_max_left 1 _⟩

theorem Outline.Within.fits {o p : Outline} (h : o.Within p) (hp : p.Fits) : o.Fits :=
  Nat.le_trans (Nat.mul_le_mul h.rowCount h.width) hp

/-! ## Any order -/

/-- If the samples of a choice fit a buffer, every order of its steps builds the one array of the
choice, in either build: with the metadata that are given, as many rows as are given, and all of
them unmeasured. If they do not, no order succeeds with checks. -/
theorem build_perm (id : String) (c : Choice) {order : List Step} (h : order.Perm c.steps) :
    let a := c.outline.array id
    (c.outline.Fits → ∀ arithmetic, build arithmetic id order = .ok a) ∧
      (¬c.outline.Fits → ∃ fault, build .checked id order = .error fault) ∧
      a.rowCount = c.rows.getD 0 ∧ a.measuredRows = 0 ∧ ∀ x ∈ a.samples, x.isNaN = true := by
  intro a
  have hmem : ∀ s ∈ order, s ∈ c.steps := fun s hs => h.mem_iff.1 hs
  have haspect : ∀ s ∈ order, s.aspect ≠ .samples :=
    fun s hs => Choice.aspect_ne_samples (hmem s hs)
  have hfold : order.foldl Outline.add {} = c.outline := by
    rw [foldl_add_perm h c.nodup_aspects, c.foldl_steps]
  refine ⟨fun hfit arithmetic => ?_, fun hfit => ?_, c.outline.rowCount_array id,
    c.outline.measuredRows_array id, List.all_eq_true.1 (c.outline.all_isNaN_array id)⟩
  · have hprefix : ∀ n, ((order.take n).foldl Outline.add {}).Fits := by
      intro n
      have htake : ∀ s ∈ order.take n, s ∈ c.steps := fun s hs => hmem s (List.mem_of_mem_take hs)
      exact (Choice.within_foldl c.within_empty htake).fits hfit
    have hbuild := foldlM_array arithmetic id haspect hprefix
    rwa [hfold] at hbuild
  · cases hbuild : build .checked id order with
    | error fault => exact ⟨fault, rfl⟩
    | ok b =>
      have hlast := of_foldlM_array_checked haspect Outline.fits_empty hbuild
      rw [hfold] at hlast
      exact (hfit hlast).elim

/-- Two columns of three rows, measured against two arrays. -/
def measuredAgainst : Choice where
  name := some "I"
  units := some ["V", "A"]
  rows := some 3
  role := some (.against [⟨0⟩, ⟨1⟩])

theorem build_perm_measuredAgainst :
    let order : List Step :=
      [.allocate 3, .setArrays [⟨0⟩, ⟨1⟩], .units ["V", "A"], .name "I"]
    order.Perm measuredAgainst.steps ∧ measuredAgainst.outline.Fits ∧
      ∀ arithmetic, build arithmetic "iv" order = .ok
        { id := "iv", givenName := some "I", units := ["V", "A"], setArrays := [⟨0⟩, ⟨1⟩],
          samples := List.replicate 6 Double.nan } := by
  intro order
  have h : order.Perm measuredAgainst.steps := by decide
  have hfit : measuredAgainst.outline.Fits := by decide
  exact ⟨h, hfit, (build_perm "iv" measuredAgainst h).1 hfit⟩

/-- So many rows of four columns have more samples than there are words. -/
def tooManyRows : Choice where
  units := some ["V", "A", "K", "T"]
  rows := some 0x4000000000000000

/-- With checks no order builds them. Without checks one order builds an array without rows, and the
other asks for more than a buffer can have. -/
theorem exists_build_ne :
    ∃ first second : List Step, first.Perm tooManyRows.steps ∧ second.Perm tooManyRows.steps ∧
      build .checked "iv" first = .error .indexOverflow ∧
      build .checked "iv" second = .error .capacityOverflow ∧
      build .wrapping "iv" first = .ok { id := "iv", units := ["V", "A", "K", "T"] } ∧
      build .wrapping "iv" second = .error .capacityOverflow := by
  refine ⟨[.units ["V", "A", "K", "T"], .allocate 0x4000000000000000],
    [.allocate 0x4000000000000000, .units ["V", "A", "K", "T"]], ?_, ?_, ?_, ?_, ?_, ?_⟩ <;>
    decide

end ArrayStore.DataArray
