import ArrayStore.Snapshot
import ArrayStore.Proofs.Keyed
import ArrayStore.Proofs.Text.Order
import Mathlib.Data.List.Induction

/-!
# Snapshots remember the last values

A snapshot is filled parameter by parameter, in any order and with repetitions.

* `Record`, `recordAll` : what is recorded, and the snapshot after it;
* `lastValue?` : the value recorded last for a parameter;
* `object?` : the object of a parameter; `Tidy` : names are in order; `Tidy.ext` : a tidy snapshot
  is determined by its instruments and objects;
* `Reflects` : a snapshot shows the last values and nothing else; `reflects_recordAll`;
* `values_recordAll` : so the listed texts depend on the last values only.
-/

namespace ArrayStore.Snapshot
open Keyed (find? Ordered)

/-! ## Recording -/

/-- A value recorded for a parameter; there may be none. -/
structure Record where
  instrument : String
  parameter : String
  value : Option Json.Value

def record (s : Snapshot) (r : Record) : Snapshot := s.insert r.instrument r.parameter r.value

def recordAll (s : Snapshot) (records : List Record) : Snapshot := records.foldl record s

/-- The record is about this parameter. -/
def Record.IsFor (r : Record) (instrument parameter : String) : Prop :=
  r.instrument = instrument ∧ r.parameter = parameter

instance (r : Record) (instrument parameter : String) : Decidable (r.IsFor instrument parameter) :=
  inferInstanceAs (Decidable (_ ∧ _))

/-- What was recorded last for a parameter; none if nothing was. -/
def lastValue? (records : List Record) (instrument parameter : String) :
    Option (Option Json.Value) :=
  (records.reverse.find? fun r => r.IsFor instrument parameter).map Record.value

/-- The listed text of a recorded value, empty if there is none. -/
def textOf (value : Option Json.Value) : String := (value.map Json.Value.stored).getD ""

theorem recordAll_concat (s : Snapshot) (records : List Record) (r : Record) :
    s.recordAll (records ++ [r]) = (s.recordAll records).record r := by
  unfold recordAll
  rw [List.foldl_append]
  rfl

theorem lastValue?_concat (records : List Record) (r : Record) (instrument parameter : String) :
    lastValue? (records ++ [r]) instrument parameter =
      if r.IsFor instrument parameter then some r.value
      else lastValue? records instrument parameter := by
  unfold lastValue?
  rw [List.reverse_append, List.reverse_singleton, List.singleton_append, List.find?_cons]
  by_cases h : r.IsFor instrument parameter
  · simp [h]
  · simp [h]

theorem isSome_lastValue?_iff {records : List Record} {instrument parameter : String} :
    (lastValue? records instrument parameter).isSome = true ↔
      ∃ r ∈ records, r.IsFor instrument parameter := by
  simp [lastValue?]

theorem valueText_parameterOf (value : Option Json.Value) :
    valueText (parameterOf value) = textOf value := by
  cases value with
  | none => rfl
  | some v =>
    unfold valueText parameterOf textOf
    rw [Keyed.find?_cons, if_pos rfl]

/-! ## Tidy snapshots -/

def parameters? (s : Snapshot) (instrument : String) : Option Parameters :=
  find? instrument s.instruments

/-- The object of a parameter. -/
def object? (s : Snapshot) (instrument parameter : String) : Option Json.Members :=
  (s.parameters? instrument).bind (find? parameter)

/-- Instruments are ordered by name, and so are their parameters. -/
structure Tidy (s : Snapshot) : Prop where
  instruments : Ordered s.instruments
  parameters : ∀ name ps, s.parameters? name = some ps → Ordered ps

section Record
variable {s : Snapshot} (r : Record)

theorem parameters?_record (name : String) :
    (s.record r).parameters? name =
      if name = r.instrument then
        some (Keyed.insert r.parameter (parameterOf r.value)
          ((s.parameters? r.instrument).getD []))
      else s.parameters? name :=
  Keyed.find?_insert ..

/-- Only the object of the recorded parameter changes. -/
theorem object?_record (name parameter : String) :
    (s.record r).object? name parameter =
      if r.IsFor name parameter then some (parameterOf r.value)
      else s.object? name parameter := by
  unfold object?
  rw [parameters?_record]
  by_cases hn : name = r.instrument
  · subst hn
    have hold : find? parameter ((s.parameters? r.instrument).getD []) =
        (s.parameters? r.instrument).bind (find? parameter) := by
      cases s.parameters? r.instrument <;> rfl
    have hfor : r.IsFor r.instrument parameter ↔ parameter = r.parameter :=
      ⟨fun h => h.2.symm, fun h => ⟨rfl, h.symm⟩⟩
    rw [if_pos rfl, Option.bind_some, Keyed.find?_insert, hold]
    simp only [hfor]
  · have hfor : ¬r.IsFor name parameter := fun h => hn h.1.symm
    rw [if_neg hn, if_neg hfor]

theorem Tidy.record (h : Tidy s) : Tidy (s.record r) := by
  refine ⟨h.instruments.insert _ _, fun name ps hps => ?_⟩
  rw [parameters?_record] at hps
  split at hps
  · cases hps
    apply Ordered.insert
    cases hold : s.parameters? r.instrument with
    | none => exact List.Pairwise.nil
    | some old => exact h.parameters r.instrument old hold
  · exact h.parameters name ps hps

end Record

/-- Nothing but the instruments and the objects of their parameters makes a tidy snapshot. -/
theorem Tidy.ext {s t : Snapshot} (hs : Tidy s) (ht : Tidy t)
    (hi : ∀ name, (s.parameters? name).isSome = (t.parameters? name).isSome)
    (ho : ∀ name parameter, s.object? name parameter = t.object? name parameter) : s = t := by
  have hparameters : ∀ name, s.parameters? name = t.parameters? name := by
    intro name
    have hname := hi name
    have hobjects := ho name
    unfold object? at hobjects
    cases hps : s.parameters? name with
    | none =>
      rw [hps] at hname
      exact (Option.isNone_iff_eq_none.1 (by simpa using hname.symm)).symm
    | some ps =>
      rw [hps] at hname hobjects
      obtain ⟨qs, hqs⟩ := Option.isSome_iff_exists.1 hname.symm
      rw [hqs] at hobjects ⊢
      exact congrArg some ((hs.parameters name ps hps).ext (ht.parameters name qs hqs) hobjects)
  have hinstruments := hs.instruments.ext ht.instruments hparameters
  cases s
  cases t
  exact congrArg Snapshot.mk hinstruments

/-! ## What a run of records leaves -/

/-- The snapshot shows the last values and nothing else. -/
structure Reflects (s : Snapshot) (records : List Record) : Prop where
  tidy : Tidy s
  instruments : ∀ name, (s.parameters? name).isSome = true ↔ ∃ r ∈ records, r.instrument = name
  objects : ∀ name parameter,
    s.object? name parameter = (lastValue? records name parameter).map parameterOf

theorem Reflects.record {s : Snapshot} {records : List Record} (h : Reflects s records)
    (r : Record) : Reflects (s.record r) (records ++ [r]) := by
  refine ⟨h.tidy.record r, fun name => ?_, fun name parameter => ?_⟩
  · have hold := h.instruments name
    rw [parameters?_record]
    by_cases hn : name = r.instrument
    · simp [hn]
    · have hn' : r.instrument ≠ name := fun he => hn he.symm
      simp [hn, hn', hold]
  · rw [object?_record, lastValue?_concat, h.objects]
    by_cases hfor : r.IsFor name parameter
    · rw [if_pos hfor, if_pos hfor, Option.map_some]
    · rw [if_neg hfor, if_neg hfor]

theorem reflects_recordAll (records : List Record) : Reflects (recordAll {} records) records := by
  induction records using List.reverseRecOn with
  | nil =>
    refine ⟨⟨List.Pairwise.nil, fun _ _ h => by cases h⟩, fun name => ?_, fun _ _ => rfl⟩
    simp [recordAll, parameters?, find?]
  | append_singleton records r ih =>
    rw [recordAll_concat]
    exact ih.record r

/-- The last values are all that there is to see. -/
theorem Reflects.ext {s t : Snapshot} {records others : List Record} (hs : Reflects s records)
    (ht : Reflects t others)
    (h : ∀ name parameter, lastValue? records name parameter = lastValue? others name parameter) :
    s = t := by
  have hnamed : ∀ {as bs : List Record},
      (∀ name parameter, lastValue? as name parameter = lastValue? bs name parameter) →
      ∀ name, (∃ r ∈ as, r.instrument = name) → ∃ r ∈ bs, r.instrument = name := by
    rintro as bs hab name ⟨r, hr, hname⟩
    have hsome : (lastValue? as name r.parameter).isSome = true :=
      isSome_lastValue?_iff.2 ⟨r, hr, hname, rfl⟩
    rw [hab] at hsome
    obtain ⟨q, hq, hfor⟩ := isSome_lastValue?_iff.1 hsome
    exact ⟨q, hq, hfor.1⟩
  refine hs.tidy.ext ht.tidy (fun name => ?_) (fun name parameter => ?_)
  · rw [Bool.eq_iff_iff, hs.instruments, ht.instruments]
    exact ⟨hnamed h name, hnamed (fun i p => (h i p).symm) name⟩
  · rw [hs.objects, ht.objects, h]

/-! ## The listed texts -/

/-- The listed texts of parameters. -/
def textsOf (ps : Parameters) : List (String × String) :=
  ps.map fun entry => (entry.1, valueText entry.2)

/-- Names in strictly ascending order of their bytes. -/
def Ascending (names : List String) : Prop :=
  names.Pairwise fun a b => Utf8.encode a < Utf8.encode b

theorem ascending_of_ordered {α : Type} {entries : List (String × α)} (h : Ordered entries) :
    Ascending (entries.map Prod.fst) :=
  List.pairwise_map.2 (h.imp Utf8.precedes_iff_encode_lt.1)

section Listing
variable {s : Snapshot} {records : List Record} {name : String}

theorem Tidy.mem_instruments_iff (h : Tidy s) {ps : Parameters} :
    (name, ps) ∈ s.instruments ↔ s.parameters? name = some ps :=
  h.instruments.find?_eq_some_iff.symm

theorem mem_values_iff (h : Tidy s) {texts : List (String × String)} :
    (name, texts) ∈ s.values ↔ ∃ ps, s.parameters? name = some ps ∧ texts = textsOf ps := by
  unfold values
  rw [List.mem_map]
  constructor
  · rintro ⟨⟨other, ps⟩, hm, he⟩
    cases he
    exact ⟨ps, h.mem_instruments_iff.1 hm, rfl⟩
  · rintro ⟨ps, hps, rfl⟩
    exact ⟨(name, ps), h.mem_instruments_iff.2 hps, rfl⟩

theorem map_fst_values (s : Snapshot) : s.values.map Prod.fst = s.instruments.map Prod.fst := by
  unfold values
  rw [List.map_map]
  rfl

theorem map_fst_textsOf (ps : Parameters) : (textsOf ps).map Prod.fst = ps.map Prod.fst := by
  unfold textsOf
  rw [List.map_map]
  rfl

theorem Tidy.mem_textsOf_iff (h : Tidy s) {ps : Parameters}
    (hps : s.parameters? name = some ps) {parameter text : String} :
    (parameter, text) ∈ textsOf ps ↔
      ∃ members, s.object? name parameter = some members ∧ text = valueText members := by
  have hordered := h.parameters name ps hps
  rw [object?, hps, Option.bind_some]
  unfold textsOf
  rw [List.mem_map]
  constructor
  · rintro ⟨⟨other, members⟩, hm, he⟩
    cases he
    exact ⟨members, hordered.find?_eq_some_iff.2 hm, rfl⟩
  · rintro ⟨members, hm, rfl⟩
    exact ⟨(parameter, members), hordered.find?_eq_some_iff.1 hm, rfl⟩

/-- A listed text is that of the last value. -/
theorem Reflects.mem_textsOf_iff (h : Reflects s records) {ps : Parameters}
    (hps : s.parameters? name = some ps) (parameter text : String) :
    (parameter, text) ∈ textsOf ps ↔
      ∃ value, lastValue? records name parameter = some value ∧ text = textOf value := by
  rw [h.tidy.mem_textsOf_iff hps, h.objects name parameter]
  simp only [Option.map_eq_some_iff]
  constructor
  · rintro ⟨_, ⟨value, hvalue, rfl⟩, rfl⟩
    exact ⟨value, hvalue, valueText_parameterOf value⟩
  · rintro ⟨value, hvalue, rfl⟩
    exact ⟨_, ⟨value, hvalue, rfl⟩, (valueText_parameterOf value).symm⟩

end Listing

/-- The instruments that were recorded are listed in the order of their bytes, each with the
parameters that were recorded for it, in that order too, and the text of the last value of each. So
two runs whose last values agree give the same listing and equal snapshots. -/
theorem values_recordAll (records : List Record) :
    let s := recordAll {} records
    Ascending (s.values.map Prod.fst) ∧
      (∀ name, name ∈ s.values.map Prod.fst ↔ ∃ r ∈ records, r.instrument = name) ∧
      (∀ name texts, (name, texts) ∈ s.values →
        Ascending (texts.map Prod.fst) ∧
        (∀ parameter, parameter ∈ texts.map Prod.fst ↔ ∃ r ∈ records, r.IsFor name parameter) ∧
        ∀ parameter text, (parameter, text) ∈ texts ↔
          ∃ value, lastValue? records name parameter = some value ∧ text = textOf value) ∧
      ∀ others, (∀ name parameter,
          lastValue? others name parameter = lastValue? records name parameter) →
        (recordAll {} others).values = s.values ∧ (recordAll {} others).same s = true := by
  intro s
  have h : Reflects s records := reflects_recordAll records
  refine ⟨?_, fun name => ?_, fun name texts hm => ?_, fun others heq => ?_⟩
  · rw [map_fst_values]
    exact ascending_of_ordered h.tidy.instruments
  · rw [map_fst_values, Keyed.mem_keys_iff]
    exact h.instruments name
  · obtain ⟨ps, hps, rfl⟩ := (mem_values_iff h.tidy).1 hm
    have htexts := h.mem_textsOf_iff hps
    refine ⟨?_, fun parameter => ?_, htexts⟩
    · rw [map_fst_textsOf]
      exact ascending_of_ordered (h.tidy.parameters name ps hps)
    · rw [← isSome_lastValue?_iff, Option.isSome_iff_exists, List.mem_map]
      constructor
      · rintro ⟨⟨other, text⟩, hmem, rfl⟩
        obtain ⟨value, hvalue, -⟩ := (htexts other text).1 hmem
        exact ⟨value, hvalue⟩
      · rintro ⟨value, hvalue⟩
        exact ⟨(parameter, textOf value), (htexts parameter _).2 ⟨value, hvalue, rfl⟩, rfl⟩
  · have hsame : recordAll {} others = s := (reflects_recordAll others).ext h heq
    rw [hsame]
    exact ⟨rfl, same_refl s⟩

/-- A value that is overwritten while other parameters are recorded, and one that is missing. -/
def overwritten : List Record :=
  [⟨"yoko", "voltage", some (.string "1.5")⟩, ⟨"ah", "cap", none⟩,
    ⟨"yoko", "output", some (.bool true)⟩, ⟨"yoko", "voltage", some (.string "2")⟩]

/-- The same last values, recorded in another order. -/
def reordered : List Record :=
  [⟨"yoko", "voltage", some (.string "2")⟩, ⟨"yoko", "output", some (.bool true)⟩,
    ⟨"ah", "cap", none⟩]

theorem values_recordAll_overwritten :
    (∀ name parameter,
        lastValue? reordered name parameter = lastValue? overwritten name parameter) ∧
      (recordAll {} reordered).values = (recordAll {} overwritten).values ∧
      (recordAll {} reordered).same (recordAll {} overwritten) = true ∧
      ("yoko", [("output", "True"), ("voltage", "2")]) ∈ (recordAll {} overwritten).values ∧
      Ascending ["output", "voltage"] := by
  have hlast : ∀ name parameter,
      lastValue? reordered name parameter = lastValue? overwritten name parameter := by
    intro name parameter
    unfold reordered overwritten lastValue? Record.IsFor
    simp only [List.reverse_cons, List.reverse_nil, List.nil_append, List.cons_append,
      List.find?_cons]
    grind
  have hm : ("yoko", [("output", "True"), ("voltage", "2")]) ∈
      (recordAll {} overwritten).values := by decide
  obtain ⟨-, -, hlisted, hsame⟩ := values_recordAll overwritten
  obtain ⟨hvalues, hsnapshots⟩ := hsame reordered hlast
  exact ⟨hlast, hvalues, hsnapshots, hm, (hlisted _ _ hm).1⟩

end ArrayStore.Snapshot
