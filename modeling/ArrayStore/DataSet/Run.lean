import ArrayStore.DataSet.Basic

/-!
# Steps on a data set

* `DataSet.Target` : an array, by handle or by id;
* `DataSet.Step`, `DataSet.Answer`, `DataSet.step` : a change of a data set, and what it answers;
* `DataSet.run` : a sequence of steps with their answers.
-/

namespace ArrayStore.DataSet

/-- An array, by its handle or by its id. -/
inductive Target where
  | handle (handle : Handle)
  | id (id : String)
  deriving DecidableEq, Repr

/-- The handle of a target. A handle need not belong to an array. -/
def handleOf (s : DataSet) : Target → Option Handle
  | .handle h => some h
  | .id id => s.handle? id

/-- The array that a target names. -/
def find? (s : DataSet) (t : Target) : Option DataArray := (s.handleOf t).bind s.get?

/-- A change of a data set. -/
inductive Step where
  | add (array : DataArray)
  | write (target : Target) (write : DataArray.Write)
  | linkByIds (pending : List (Handle × List String))
  deriving DecidableEq, Repr

inductive Answer where
  /-- The handle of an added array. -/
  | handle (handle : Handle)
  /-- The written array, if there is one. -/
  | array (array : Option DataArray)
  /-- All arrays were linked. -/
  | linked
  deriving DecidableEq, Repr

/-- The effect of a step. Only an unresolved list of ids leaves a trace of its failure. -/
def step (arithmetic : Arithmetic) (s : DataSet) : Step → DataSet × Except StoreError Answer
  | .add a =>
    match s.add a with
    | .ok t => (t, .ok (.handle ⟨s.size⟩))
    | .error fault => (s, .error fault.toError)
  | .write target w =>
    match s.handleOf target with
    | none => (s, .ok (.array none))
    | some h =>
      match s.write arithmetic h w with
      | .ok t => (t, .ok (.array (t.get? h)))
      | .error fault => (s, .error fault.toError)
  | .linkByIds pending =>
    match s.linkByIds pending with
    | (t, .ok ()) => (t, .ok .linked)
    | (t, .error unresolved) => (t, .error unresolved.toError)

/-- The data set after a sequence of steps, and their answers. -/
def run (arithmetic : Arithmetic) (s : DataSet) :
    List Step → DataSet × List (Except StoreError Answer)
  | [] => (s, [])
  | step :: steps =>
    let (s, answer) := s.step arithmetic step
    let (s, answers) := run arithmetic s steps
    (s, answer :: answers)

end ArrayStore.DataSet
