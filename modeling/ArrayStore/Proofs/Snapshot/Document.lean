import ArrayStore.Proofs.Json.WellFormed
import ArrayStore.Proofs.Snapshot.Shape

/-!
# What a document describes

* `Describes` : a snapshot holds the instruments and the parameters of a document and nothing else;
* `describes_of_ofDocument` : so does the one that is read;
* `IsFirst` : the first name of which something holds, by the order of bytes;
* `IsAtFault` : an instrument with malformed parameters, or with a malformed one;
* `ofDocument_outcome` : what is read is what the document describes, and a refusal names the first
  instrument at fault, and within it the first parameter at fault.
-/

namespace ArrayStore.Snapshot
open Keyed (find? Ordered)

/-! ## What is read -/

/-- The snapshot has the instruments of the document, and each of them its parameters with their
whole objects. -/
structure Describes (document : Json.Value) (s : Snapshot) : Prop where
  instruments : ∀ name,
    (s.parameters? name).isSome = true ↔ ∃ instrument, instrumentAt? document name = some instrument
  objects : ∀ name parameter,
    (s.object? name parameter).map .object = parameterAt? document name parameter

/-- The listing has the instruments of the document in the order of their bytes, each once, and for
each its parameters in that order, each once with the text of its value. -/
structure Lists (document : Json.Value) (listing : List (String × List (String × String))) :
    Prop where
  ascending : Ascending (listing.map Prod.fst)
  instruments : ∀ name, name ∈ listing.map Prod.fst ↔
    ∃ instrument, instrumentAt? document name = some instrument
  parametersAscending : ∀ name texts, (name, texts) ∈ listing → Ascending (texts.map Prod.fst)
  parameters : ∀ name texts, (name, texts) ∈ listing → ∀ parameter text,
    (parameter, text) ∈ texts ↔ ∃ object, parameterAt? document name parameter = some object ∧
      text = textOf (object.get? "value")

section Read
variable {document : Json.Value} {instruments : Json.Members} {name : String}

theorem instrumentAt?_eq (h : document.get? "instruments" = some (.object instruments)) :
    instrumentAt? document name = find? name instruments := by
  unfold instrumentAt?
  rw [h]
  rfl

theorem find?_tableOf (members : Json.Members) (parameter : String) :
    find? parameter (tableOf members) = (find? parameter members).map membersOf :=
  Keyed.find?_map membersOf parameter members

theorem ordered_parametersIn {instrument : Json.Value} (h : instrument.WellFormed) :
    Ordered (parametersIn instrument) := by
  unfold parametersIn
  cases hp : instrument.get? "parameters" with
  | none => exact List.Pairwise.nil
  | some parameters =>
    have hw : parameters.WellFormed := h.of_get? hp
    cases parameters with
    | object members => exact hw.ordered.map fun _ value => membersOf value
    | _ => exact List.Pairwise.nil

/-- The parameters of an instrument without fault are those of its object. -/
theorem find?_parametersIn {instrument : String × Json.Value}
    (h : instrumentFault? instrument = none) (parameter : String) :
    (find? parameter (parametersIn instrument.2)).map Json.Value.object =
      (instrument.2.get? "parameters").bind (Json.Value.get? parameter) := by
  rw [instrumentFault?_eq_none_iff] at h
  unfold parametersIn
  cases hp : instrument.2.get? "parameters" with
  | none => rfl
  | some parameters =>
    obtain ⟨members, rfl, hobjects⟩ := h parameters hp
    rw [Option.map_some, Option.getD_some, Option.bind_some, membersOf, find?_tableOf,
      Option.map_map]
    show _ = find? parameter members
    cases hf : find? parameter members with
    | none => rfl
    | some value =>
      obtain ⟨object, ho⟩ := hobjects _ (Keyed.mem_of_lookup_eq_some hf)
      obtain rfl : value = .object object := ho
      rfl

theorem ofDocument_eq_ok {s : Snapshot} (h : ofDocument document = .ok s) :
    ∃ instruments, document.get? "instruments" = some (.object instruments) ∧
      (∀ instrument ∈ instruments, instrumentFault? instrument = none) ∧
      s = ⟨instruments.map fun i => (i.1, parametersIn i.2)⟩ := by
  by_cases hi : ∃ instruments, document.get? "instruments" = some (.object instruments)
  · obtain ⟨instruments, hi⟩ := hi
    rw [ofDocument_eq hi, settle_eq_ok_iff, List.findSome?_eq_none_iff] at h
    exact ⟨instruments, hi, h.1, h.2.symm⟩
  · rw [ofDocument_of_noInstruments fun instruments h => hi ⟨instruments, h⟩] at h
    cases h

end Read

section Described
variable {document : Json.Value} {s : Snapshot}

theorem describes_of_ofDocument (h : ofDocument document = .ok s) : Describes document s := by
  obtain ⟨instruments, hi, hfaults, rfl⟩ := ofDocument_eq_ok h
  have hparameters : ∀ name, parameters? ⟨instruments.map fun i => (i.1, parametersIn i.2)⟩ name =
      (find? name instruments).map parametersIn :=
    fun name => Keyed.find?_map parametersIn name instruments
  refine ⟨fun name => ?_, fun name parameter => ?_⟩
  · rw [hparameters, Option.isSome_map, instrumentAt?_eq hi, Option.isSome_iff_exists]
  · rw [object?, hparameters, parameterAt?, instrumentAt?_eq hi]
    cases hf : find? name instruments with
    | none => rfl
    | some instrument =>
      have hm : (name, instrument) ∈ instruments := Keyed.mem_of_lookup_eq_some hf
      exact find?_parametersIn (hfaults _ hm) parameter

theorem tidy_of_ofDocument (hw : document.WellFormed) (h : ofDocument document = .ok s) :
    Tidy s := by
  obtain ⟨instruments, hi, -, rfl⟩ := ofDocument_eq_ok h
  have hinstruments : (Json.Value.object instruments).WellFormed := hw.of_get? hi
  refine ⟨hinstruments.ordered.map fun _ instrument => parametersIn instrument,
    fun name ps hps => ?_⟩
  rw [parameters?, Keyed.find?_map, Option.map_eq_some_iff] at hps
  obtain ⟨instrument, hf, rfl⟩ := hps
  exact ordered_parametersIn (Json.Value.WellFormed.of_get? hinstruments hf)

/-- A tidy snapshot lists what it holds. -/
theorem Describes.lists (hd : Describes document s) (ht : Tidy s) : Lists document s.values := by
  refine ⟨?_, fun name => ?_, fun name texts hm => ?_, fun name texts hm parameter text => ?_⟩
  · rw [map_fst_values]
    exact ascending_of_ordered ht.instruments
  · rw [map_fst_values, Keyed.mem_keys_iff]
    exact hd.instruments name
  · obtain ⟨ps, hps, rfl⟩ := (mem_values_iff ht).1 hm
    rw [map_fst_textsOf]
    exact ascending_of_ordered (ht.parameters name ps hps)
  · obtain ⟨ps, hps, rfl⟩ := (mem_values_iff ht).1 hm
    rw [ht.mem_textsOf_iff hps, ← hd.objects]
    constructor
    · rintro ⟨members, ho, rfl⟩
      exact ⟨.object members, by rw [ho]; rfl, rfl⟩
    · rintro ⟨object, ho, rfl⟩
      obtain ⟨members, hm, rfl⟩ := Option.map_eq_some_iff.1 ho
      exact ⟨members, hm, rfl⟩

end Described

/-! ## What is at fault -/

/-- The name has the property, and no name before it has, by the order of bytes. -/
def IsFirst (p : String → Prop) (name : String) : Prop :=
  p name ∧ ∀ other, Utf8.encode other < Utf8.encode name → ¬p other

/-- The parameters of the instrument are no object. -/
def ParametersMalformed (document : Json.Value) (name : String) : Prop :=
  ∃ parameters, (instrumentAt? document name).bind (Json.Value.get? "parameters") =
    some parameters ∧ ∀ members, parameters ≠ .object members

/-- The parameter has this value, which is no object. -/
def ParameterMalformed (document : Json.Value) (name parameter : String) (value : Json.Value) :
    Prop :=
  parameterAt? document name parameter = some value ∧ ∀ members, value ≠ .object members

def IsAtFault (document : Json.Value) (name : String) : Prop :=
  ParametersMalformed document name ∨
    ∃ parameter value, ParameterMalformed document name parameter value

/-- The error is about the parameters of the instrument, if they are no object, and else about the
first of them that is none. -/
def Blames (document : Json.Value) (name : String) (error : StoreError) : Prop :=
  (ParametersMalformed document name ∧
      error = .decode s!"instrument '{name}' has malformed 'parameters'") ∨
    ∃ parameter value,
      IsFirst (fun other => ∃ v, ParameterMalformed document name other v) parameter ∧
      ParameterMalformed document name parameter value ∧
      error = .decode (s!"parameter '{name}.{parameter}' is not an object: " ++ value.compact)

/-- In an ordered list, the first entry with a property is that of the first name. -/
theorem exists_first_of_findSome? {α β : Type} {entries : List (String × α)} (h : Ordered entries)
    {f : String × α → Option β} {b : β} (hf : entries.findSome? f = some b) :
    ∃ key value, find? key entries = some value ∧ f (key, value) = some b ∧
      ∀ other w, Utf8.encode other < Utf8.encode key → find? other entries = some w →
        f (other, w) = none := by
  obtain ⟨before, ⟨key, value⟩, after, rfl, hb, hbefore⟩ := List.findSome?_eq_some_iff.1 hf
  refine ⟨key, value, h.find?_eq_some_iff.2 (List.mem_append_right _ (List.mem_cons_self ..)), hb,
    fun other w hlt hw => ?_⟩
  have hprecedes : Text.precedes other key = true := Utf8.precedes_iff_encode_lt.2 hlt
  obtain ⟨-, hrest, -⟩ := List.pairwise_append.1 h
  rcases List.mem_append.1 (h.find?_eq_some_iff.1 hw) with hm | hm
  · exact hbefore _ hm
  · rcases List.mem_cons.1 hm with he | hm
    · cases he
      exact (Keyed.precedes_ne hprecedes rfl).elim
    · exact (Keyed.precedes_asymm hprecedes ((List.pairwise_cons.1 hrest).1 _ hm)).elim

section Fault
variable {document instrument : Json.Value} {name : String}

theorem not_isAtFault_of_none (h : instrumentAt? document name = none) :
    ¬IsAtFault document name := by
  rintro (⟨parameters, hp, -⟩ | ⟨parameter, value, hp, -⟩)
  · rw [h] at hp
    cases hp
  · rw [parameterAt?, h] at hp
    cases hp

theorem not_isAtFault (h : instrumentAt? document name = some instrument)
    (hf : instrumentFault? (name, instrument) = none) : ¬IsAtFault document name := by
  rw [instrumentFault?_eq_none_iff] at hf
  rintro (⟨parameters, hp, hne⟩ | ⟨parameter, value, hp, hne⟩)
  · rw [h, Option.bind_some] at hp
    obtain ⟨members, rfl, -⟩ := hf parameters hp
    exact hne members rfl
  · rw [parameterAt?, h, Option.bind_some] at hp
    obtain ⟨parameters, hps, hv⟩ := Option.bind_eq_some_iff.1 hp
    obtain ⟨members, rfl, hobjects⟩ := hf parameters hps
    obtain ⟨object, rfl⟩ := hobjects _ (Keyed.mem_of_lookup_eq_some hv)
    exact hne object rfl

theorem parameterFault?_eq_some_iff {parameter : String × Json.Value} {fault : Fault} :
    parameterFault? name parameter = some fault ↔
      (∀ members, parameter.2 ≠ .object members) ∧
        fault = .malformedParameter name parameter.1 parameter.2 := by
  unfold parameterFault?
  have hobject : isObject parameter.2 = true ↔ ¬∀ members, parameter.2 ≠ .object members := by
    rw [isObject_iff]
    simp only [not_forall, not_not]
  split
  · next ho => exact ⟨fun h => (nomatch h), fun h => (hobject.1 ho h.1).elim⟩
  · next ho =>
    rw [hobject, not_not] at ho
    exact ⟨fun h => ⟨ho, (Option.some.inj h).symm⟩, fun h => congrArg some h.2.symm⟩

/-- The fault of an instrument whose parameters are an object is that of its first malformed
parameter. -/
theorem exists_isFirst_of_table {table : Json.Members} (ht : Ordered table)
    (h : instrumentAt? document name = some instrument)
    (hp : instrument.get? "parameters" = some (.object table)) {fault : Fault}
    (hf : table.findSome? (parameterFault? name) = some fault) :
    ∃ parameter value, IsFirst (fun other => ∃ v, ParameterMalformed document name other v)
        parameter ∧
      ParameterMalformed document name parameter value ∧
      fault = .malformedParameter name parameter value := by
  have hat : ∀ parameter, parameterAt? document name parameter = find? parameter table := by
    intro parameter
    rw [parameterAt?, h, Option.bind_some, hp]
    rfl
  obtain ⟨parameter, value, hv, hfault, hbefore⟩ := exists_first_of_findSome? ht hf
  obtain ⟨hne, rfl⟩ := parameterFault?_eq_some_iff.1 hfault
  have hmalformed : ParameterMalformed document name parameter value :=
    ⟨(hat parameter).trans hv, hne⟩
  refine ⟨parameter, value, ⟨⟨value, hmalformed⟩, fun other hlt => ?_⟩, hmalformed, rfl⟩
  rintro ⟨w, hw, hnw⟩
  obtain ⟨object, rfl⟩ := parameterFault?_eq_none_iff.1
    (hbefore other w hlt ((hat other).symm.trans hw))
  exact hnw object rfl

theorem blames_of_fault (hw : instrument.WellFormed)
    (h : instrumentAt? document name = some instrument) {fault : Fault}
    (hf : instrumentFault? (name, instrument) = some fault) :
    IsAtFault document name ∧ Blames document name fault.toError := by
  unfold instrumentFault? at hf
  split at hf
  · cases hf
  · next table hp =>
    have ht : Ordered table := (hw.of_get? hp).ordered
    obtain ⟨parameter, value, hfirst, hmalformed, rfl⟩ := exists_isFirst_of_table ht h hp hf
    exact ⟨.inr ⟨parameter, value, hmalformed⟩, .inr ⟨parameter, value, hfirst, hmalformed, rfl⟩⟩
  · next parameters hne hp =>
    cases hf
    have hmalformed : ParametersMalformed document name :=
      ⟨parameters, by rw [h]; exact hp, hne⟩
    exact ⟨.inl hmalformed, .inl ⟨hmalformed, rfl⟩⟩

end Fault

/-! ## Both outcomes -/

/-- The snapshot that is read from a document holds what the document describes and lists it. If
there are instruments and the document is refused, the error is about the first instrument at fault,
and there about its parameters or the first of them at fault. -/
theorem ofDocument_outcome {document : Json.Value} (h : document.WellFormed) :
    (∀ s, ofDocument document = .ok s → Describes document s ∧ Lists document s.values) ∧
      ∀ instruments fault, document.get? "instruments" = some (.object instruments) →
        ofDocument document = .error fault →
          ∃ name, IsFirst (IsAtFault document) name ∧ Blames document name fault.toError := by
  refine ⟨fun s hs => ?_, fun instruments fault hi hf => ?_⟩
  · have hd : Describes document s := describes_of_ofDocument hs
    exact ⟨hd, hd.lists (tidy_of_ofDocument h hs)⟩
  · have hinstruments : (Json.Value.object instruments).WellFormed := h.of_get? hi
    rw [ofDocument_eq hi, settle_eq_error_iff] at hf
    obtain ⟨name, instrument, hat, hfault, hbefore⟩ :=
      exists_first_of_findSome? hinstruments.ordered hf
    rw [← instrumentAt?_eq hi] at hat
    have hw : instrument.WellFormed :=
      hinstruments.of_get? ((instrumentAt?_eq hi).symm.trans hat)
    obtain ⟨hatFault, hblames⟩ := blames_of_fault hw hat hfault
    refine ⟨name, ⟨hatFault, fun other hlt => ?_⟩, hblames⟩
    cases ho : instrumentAt? document other with
    | none => exact not_isAtFault_of_none ho
    | some v => exact not_isAtFault ho (hbefore other v hlt ((instrumentAt?_eq hi).symm.trans ho))

/-- Two instruments, one of them without parameters. -/
def station : Json.Value :=
  .object [("instruments", .object [
    ("fsv", .object [("parameters", .object [
      ("mode", .object [("unit", .string "V"), ("value", .null)]), ("span", .object [])])]),
    ("mr155", .object [])])]

/-- Three faults in two instruments. -/
def brokenStation : Json.Value :=
  .object [("instruments", .object [
    ("a", .object []),
    ("b", .object [("parameters", .object [
      ("p", .object []), ("q", .array [.null, .bool true]), ("r", .number (.integer 3))])]),
    ("c", .object [("parameters", .null)])])]

theorem ofDocument_outcome_stations :
    station.WellFormed ∧ brokenStation.WellFormed ∧
      (∃ s, ofDocument station = .ok s ∧ Describes station s ∧ Lists station s.values ∧
        s.values = [("fsv", [("mode", "None"), ("span", "")]), ("mr155", [])]) ∧
      ∃ fault, ofDocument brokenStation = .error fault ∧
        (∃ name, IsFirst (IsAtFault brokenStation) name ∧
          Blames brokenStation name fault.toError) ∧
        fault.toError = .decode "parameter 'b.q' is not an object: [null,true]" := by
  have hstation : station.WellFormed := by decide +kernel
  have hbroken : brokenStation.WellFormed := by decide +kernel
  obtain ⟨hd, hl⟩ := (ofDocument_outcome hstation).1 _ rfl
  have hblames := (ofDocument_outcome hbroken).2 _ _ rfl rfl
  exact ⟨hstation, hbroken, ⟨_, rfl, hd, hl, by decide⟩, _, rfl, hblames, by decide⟩

end ArrayStore.Snapshot
