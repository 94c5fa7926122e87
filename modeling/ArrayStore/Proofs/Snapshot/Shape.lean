import ArrayStore.Proofs.Snapshot.Building

/-!
# The documents that describe a snapshot

* `parameterFault?`, `instrumentFault?` : what is wrong with a parameter and with an instrument;
* `parametersOf_eq`, `readInstruments_eq` : reading stops at the first fault and keeps everything if
  there is none;
* `IsReadable` : there is an object of instruments, and parameters are objects of objects;
  `IsDocumented` : every instrument is an object, too;
* `exists_ofDocument_eq_ok_iff` : exactly the readable documents are accepted;
* `ofDocument_accepts_readable` : all others are refused, and the documented ones are those with
  objects as instruments;
* `exists_ofDocument_eq_ok_not_isDocumented` : an instrument that is no object is accepted.
-/

namespace ArrayStore.Snapshot
open Keyed (find?)

/-! ## Faults -/

def isObject : Json.Value → Bool
  | .object _ => true
  | _ => false

def parameterFault? (instrument : String) (parameter : String × Json.Value) : Option Fault :=
  if isObject parameter.2 then none
  else some (.malformedParameter instrument parameter.1 parameter.2)

/-- The fault of an instrument, that of its first malformed parameter if its parameters are an
object. -/
def instrumentFault? (instrument : String × Json.Value) : Option Fault :=
  match instrument.2.get? "parameters" with
  | none => none
  | some (.object table) => table.findSome? (parameterFault? instrument.1)
  | some _ => some (.malformedParameters instrument.1)

/-- The parameters of an object, with their objects. -/
def tableOf (members : Json.Members) : Parameters := members.map fun p => (p.1, membersOf p.2)

/-- The parameters of an instrument, none if it has none. -/
def parametersIn (instrument : Json.Value) : Parameters :=
  ((instrument.get? "parameters").map fun parameters => tableOf (membersOf parameters)).getD []

/-- The result, unless there is a fault. -/
def settle {α : Type} (fault? : Option Fault) (result : α) : Except Fault α :=
  match fault? with
  | some fault => .error fault
  | none => .ok result

theorem settle_eq_ok_iff {α : Type} {fault? : Option Fault} {a b : α} :
    settle fault? a = .ok b ↔ fault? = none ∧ a = b := by
  cases fault? <;> simp [settle]

theorem settle_eq_error_iff {α : Type} {fault? : Option Fault} {a : α} {fault : Fault} :
    settle fault? a = .error fault ↔ fault? = some fault := by
  cases fault? <;> simp [settle]

theorem isObject_iff {v : Json.Value} : isObject v = true ↔ ∃ members, v = .object members := by
  cases v <;> simp [isObject]

theorem parametersOf_eq (instrument : String) (members : Json.Members) :
    parametersOf instrument members =
      settle (members.findSome? (parameterFault? instrument)) (tableOf members) := by
  induction members with
  | nil => rfl
  | cons member members ih =>
    obtain ⟨parameter, value⟩ := member
    cases value with
    | object object =>
      rw [parametersOf, ih, List.findSome?_cons]
      show _ = settle (members.findSome? (parameterFault? instrument)) _
      cases members.findSome? (parameterFault? instrument) <;> rfl
    | _ => rfl

theorem readInstrument_eq (name : String) (instrument : Json.Value) :
    readInstrument name instrument =
      settle (instrumentFault? (name, instrument)) (parametersIn instrument) := by
  unfold readInstrument instrumentFault? parametersIn
  cases instrument.get? "parameters" with
  | none => rfl
  | some parameters =>
    cases parameters with
    | object table => exact parametersOf_eq name table
    | _ => rfl

theorem readInstruments_eq (instruments : Json.Members) :
    readInstruments instruments =
      settle (instruments.findSome? instrumentFault?)
        (instruments.map fun i => (i.1, parametersIn i.2)) := by
  induction instruments with
  | nil => rfl
  | cons first rest ih =>
    obtain ⟨name, instrument⟩ := first
    rw [readInstruments, ih, readInstrument_eq, List.findSome?_cons]
    cases instrumentFault? (name, instrument) with
    | some fault => rfl
    | none => cases rest.findSome? instrumentFault? <;> rfl

theorem ofDocument_eq {document : Json.Value} {instruments : Json.Members}
    (h : document.get? "instruments" = some (.object instruments)) :
    ofDocument document = settle (instruments.findSome? instrumentFault?)
      ⟨instruments.map fun i => (i.1, parametersIn i.2)⟩ := by
  unfold ofDocument
  rw [h]
  simp only [readInstruments_eq]
  cases instruments.findSome? instrumentFault? <;> rfl

theorem ofDocument_of_noInstruments {document : Json.Value}
    (h : ∀ instruments, document.get? "instruments" ≠ some (.object instruments)) :
    ofDocument document = .error .noInstruments := by
  unfold ofDocument
  split
  · next instruments hi => exact (h instruments hi).elim
  · rfl

/-! ## Shapes -/

/-- An object that holds nothing but objects. -/
def IsTable (v : Json.Value) : Prop :=
  ∃ members, v = .object members ∧ ∀ member ∈ members, ∃ object, member.2 = .object object

/-- There is an object of instruments, and what parameters they have are tables. -/
def IsReadable (document : Json.Value) : Prop :=
  ∃ instruments, document.get? "instruments" = some (.object instruments) ∧
    ∀ instrument ∈ instruments, ∀ parameters,
      instrument.2.get? "parameters" = some parameters → IsTable parameters

/-- The documented shape: an object with an object of instruments, each of them an object whose
parameters, if it has any, are a table. -/
def IsDocumented (document : Json.Value) : Prop :=
  ∃ members instruments, document = .object members ∧
    find? "instruments" members = some (.object instruments) ∧
    ∀ instrument ∈ instruments, ∃ fields, instrument.2 = .object fields ∧
      ∀ parameters, find? "parameters" fields = some parameters → IsTable parameters

/-- Every instrument of the document is an object. -/
def HasObjects (document : Json.Value) : Prop :=
  ∀ instruments, document.get? "instruments" = some (.object instruments) →
    ∀ instrument ∈ instruments, ∃ fields, instrument.2 = .object fields

theorem exists_object_of_get? {v value : Json.Value} {key : String} (h : v.get? key = some value) :
    ∃ members, v = .object members ∧ find? key members = some value := by
  cases v with
  | object members => exact ⟨members, rfl, h⟩
  | _ => cases h

theorem isDocumented_iff {document : Json.Value} :
    IsDocumented document ↔ IsReadable document ∧ HasObjects document := by
  constructor
  · rintro ⟨members, instruments, rfl, hi, hshape⟩
    refine ⟨⟨instruments, hi, fun instrument hm parameters hp => ?_⟩, fun others ho => ?_⟩
    · obtain ⟨fields, hfields, htable⟩ := hshape instrument hm
      rw [hfields] at hp
      exact htable parameters hp
    · cases hi.symm.trans ho
      intro instrument hm
      obtain ⟨fields, hfields, -⟩ := hshape instrument hm
      exact ⟨fields, hfields⟩
  · rintro ⟨⟨instruments, hi, htables⟩, hobjects⟩
    obtain ⟨members, rfl, hfind⟩ := exists_object_of_get? hi
    refine ⟨members, instruments, rfl, hfind, fun instrument hm => ?_⟩
    obtain ⟨fields, hfields⟩ := hobjects instruments hi instrument hm
    have htable := htables instrument hm
    rw [hfields] at htable
    exact ⟨fields, hfields, htable⟩

/-! ## Acceptance -/

theorem parameterFault?_eq_none_iff {instrument : String} {parameter : String × Json.Value} :
    parameterFault? instrument parameter = none ↔ ∃ object, parameter.2 = .object object := by
  unfold parameterFault?
  rw [← isObject_iff]
  split <;> simp_all

theorem instrumentFault?_eq_none_iff {instrument : String × Json.Value} :
    instrumentFault? instrument = none ↔
      ∀ parameters, instrument.2.get? "parameters" = some parameters → IsTable parameters := by
  unfold instrumentFault? IsTable
  split
  · next h => simp [h]
  · next table h =>
    simp only [h, List.findSome?_eq_none_iff, parameterFault?_eq_none_iff, Option.some.injEq,
      forall_eq', Json.Value.object.injEq, exists_eq_left']
  · next parameters hne h =>
    refine ⟨fun hf => (nomatch hf), fun hall => ?_⟩
    obtain ⟨table, rfl, -⟩ := hall parameters h
    exact (hne table rfl).elim

/-- Exactly the readable documents are accepted. -/
theorem exists_ofDocument_eq_ok_iff {document : Json.Value} :
    (∃ s, ofDocument document = .ok s) ↔ IsReadable document := by
  by_cases hi : ∃ instruments, document.get? "instruments" = some (.object instruments)
  · obtain ⟨instruments, hi⟩ := hi
    unfold IsReadable
    rw [ofDocument_eq hi, hi]
    simp only [settle_eq_ok_iff, List.findSome?_eq_none_iff, instrumentFault?_eq_none_iff,
      Option.some.injEq, Json.Value.object.injEq, exists_eq_left', exists_and_left, exists_eq',
      and_true]
  · rw [ofDocument_of_noInstruments fun instruments h => hi ⟨instruments, h⟩]
    exact ⟨fun ⟨_, h⟩ => (nomatch h), fun ⟨instruments, h, _⟩ => (hi ⟨instruments, h⟩).elim⟩

/-- Readable documents are accepted, and all others are refused as ill-formed. The documented shape
is that of the accepted documents whose instruments are all objects. -/
theorem ofDocument_accepts_readable (document : Json.Value) :
    ((∃ s, ofDocument document = .ok s) ↔ IsReadable document) ∧
      ((∃ fault message, ofDocument document = .error fault ∧ fault.toError = .decode message) ↔
        ¬IsReadable document) ∧
      (IsDocumented document ↔ (∃ s, ofDocument document = .ok s) ∧ HasObjects document) := by
  have hok : (∃ s, ofDocument document = .ok s) ↔ IsReadable document :=
    exists_ofDocument_eq_ok_iff
  refine ⟨hok, ?_, isDocumented_iff.trans (and_congr_left' hok.symm)⟩
  rw [← hok]
  cases hread : ofDocument document with
  | ok s => simp
  | error fault =>
    have hdecode : ∃ message, fault.toError = .decode message := by
      cases fault <;> exact ⟨_, rfl⟩
    simpa using hdecode

/-- An instrument that is a number passes for one without parameters. -/
theorem exists_ofDocument_eq_ok_not_isDocumented :
    ∃ document s, document = .object [("instruments", .object [("x", .number (.integer 3))])] ∧
      ofDocument document = .ok s ∧ ¬IsDocumented document := by
  refine ⟨_, ⟨[("x", [])]⟩, rfl, rfl, ?_⟩
  rintro ⟨members, instruments, he, hi, hshape⟩
  cases he
  cases hi
  obtain ⟨fields, hfields, -⟩ := hshape _ (List.mem_cons_self ..)
  cases hfields

end ArrayStore.Snapshot
