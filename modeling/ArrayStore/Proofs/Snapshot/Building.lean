import ArrayStore.Proofs.Snapshot.Recording

/-!
# Three ways to one snapshot

Instruments with their parameters give a snapshot directly, through a document, or parameter by
parameter.

* `documentOf` : the document of instruments; `ofDocument_documentOf` : it is read back;
* `instrumentAt?`, `parameterAt?` : what a document holds, and `recordsOf` : its parameters as
  records;
* `entries` : the parameters of a snapshot as records; `recordAll_of_mem_entries_iff` : recorded in
  any order they give the snapshot, if each instrument has one and values are all that there is;
* `builders_agree` : so the three ways agree.
-/

namespace ArrayStore.Snapshot
open Keyed (find? Ordered)

/-! ## Documents -/

/-- An instrument of a document. -/
def instrumentOf (parameters : List (String × Json.Members)) : Json.Value :=
  .object [("parameters", .object (Keyed.ofList (parameters.map fun p => (p.1, .object p.2))))]

/-- The document of instruments. Of equal names the last one stands. -/
def documentOf (instruments : List (String × List (String × Json.Members))) : Json.Value :=
  .object [("instruments",
    .object (Keyed.ofList (instruments.map fun i => (i.1, instrumentOf i.2))))]

/-- The instrument of a document with a name. -/
def instrumentAt? (document : Json.Value) (instrument : String) : Option Json.Value :=
  (document.get? "instruments").bind (Json.Value.get? instrument)

/-- The parameter of a document with a name. -/
def parameterAt? (document : Json.Value) (instrument parameter : String) : Option Json.Value :=
  ((instrumentAt? document instrument).bind (Json.Value.get? "parameters")).bind
    (Json.Value.get? parameter)

def membersOf : Json.Value → Json.Members
  | .object members => members
  | _ => []

/-- The parameters of a document with their values. -/
def recordsOf (document : Json.Value) : List Record :=
  (((document.get? "instruments").map membersOf).getD []).flatMap fun instrument =>
    (((instrument.2.get? "parameters").map membersOf).getD []).map fun parameter =>
      ⟨instrument.1, parameter.1, parameter.2.get? "value"⟩

/-- An object that has no key other than `value`. -/
def HoldsOnlyValue (object : Json.Value) : Prop :=
  ∃ members, object = .object members ∧ Ordered members ∧
    ∀ key ∈ members.map Prod.fst, key = "value"

/-! ## Instruments and their document -/

theorem instrumentOf_eq (parameters : List (String × Json.Members)) :
    instrumentOf parameters = .object [("parameters",
      .object ((Keyed.ofList parameters).map fun p => (p.1, .object p.2)))] := by
  unfold instrumentOf
  rw [Keyed.ofList_map]

theorem documentOf_eq (instruments : List (String × List (String × Json.Members))) :
    documentOf instruments = .object [("instruments",
      .object ((Keyed.ofList instruments).map fun i => (i.1, instrumentOf i.2)))] := by
  unfold documentOf
  rw [Keyed.ofList_map]

theorem ofInstruments_eq (instruments : List (String × List (String × Json.Members))) :
    ofInstruments instruments =
      ⟨(Keyed.ofList instruments).map fun i => (i.1, Keyed.ofList i.2)⟩ := by
  unfold ofInstruments
  rw [Keyed.ofList_map]

theorem parametersOf_map_object (name : String) (ps : Parameters) :
    parametersOf name (ps.map fun p => (p.1, .object p.2)) = .ok ps := by
  induction ps with
  | nil => rfl
  | cons p ps ih =>
    rw [List.map_cons, parametersOf, ih]
    rfl

theorem readInstrument_instrumentOf (name : String) (parameters : List (String × Json.Members)) :
    readInstrument name (instrumentOf parameters) = .ok (Keyed.ofList parameters) := by
  rw [instrumentOf_eq, readInstrument, Json.Value.get?, Keyed.find?_cons, if_pos rfl]
  exact parametersOf_map_object name _

theorem readInstruments_map_instrumentOf
    (instruments : List (String × List (String × Json.Members))) :
    readInstruments (instruments.map fun i => (i.1, instrumentOf i.2)) =
      .ok (instruments.map fun i => (i.1, Keyed.ofList i.2)) := by
  induction instruments with
  | nil => rfl
  | cons i instruments ih =>
    rw [List.map_cons, readInstruments, readInstrument_instrumentOf, ih]
    rfl

theorem ofDocument_documentOf (instruments : List (String × List (String × Json.Members))) :
    ofDocument (documentOf instruments) = .ok (ofInstruments instruments) := by
  rw [documentOf_eq, ofInstruments_eq, ofDocument, Json.Value.get?, Keyed.find?_cons, if_pos rfl]
  simp only [readInstruments_map_instrumentOf]
  rfl

section
variable (instruments : List (String × List (String × Json.Members)))

theorem parameters?_ofInstruments (name : String) :
    (ofInstruments instruments).parameters? name =
      (find? name (Keyed.ofList instruments)).map Keyed.ofList := by
  rw [ofInstruments_eq]
  exact Keyed.find?_map Keyed.ofList name _

theorem tidy_ofInstruments : Tidy (ofInstruments instruments) := by
  refine ⟨Keyed.ordered_ofList _, fun name ps hps => ?_⟩
  rw [parameters?_ofInstruments] at hps
  obtain ⟨parameters, -, rfl⟩ := Option.map_eq_some_iff.1 hps
  exact Keyed.ordered_ofList parameters

theorem instrumentAt?_documentOf (name : String) :
    instrumentAt? (documentOf instruments) name =
      (find? name (Keyed.ofList instruments)).map instrumentOf := by
  rw [documentOf_eq, instrumentAt?, Json.Value.get?, Keyed.find?_cons, if_pos rfl, Option.bind_some]
  exact Keyed.find?_map instrumentOf name _

/-- The document and the snapshot have the same parameters. -/
theorem parameterAt?_documentOf (name parameter : String) :
    parameterAt? (documentOf instruments) name parameter =
      ((ofInstruments instruments).object? name parameter).map .object := by
  rw [parameterAt?, instrumentAt?_documentOf, object?, parameters?_ofInstruments]
  cases find? name (Keyed.ofList instruments) with
  | none => rfl
  | some parameters =>
    rw [Option.map_some, Option.map_some, Option.bind_some, Option.bind_some, instrumentOf_eq,
      Json.Value.get?, Keyed.find?_cons, if_pos rfl, Option.bind_some]
    exact Keyed.find?_map Json.Value.object parameter _

end

/-! ## Parameters as records -/

/-- The parameters of a snapshot with their values. -/
def entries (s : Snapshot) : List Record :=
  s.instruments.flatMap fun instrument =>
    instrument.2.map fun parameter => ⟨instrument.1, parameter.1, find? "value" parameter.2⟩

theorem recordsOf_documentOf (instruments : List (String × List (String × Json.Members))) :
    recordsOf (documentOf instruments) = (ofInstruments instruments).entries := by
  rw [documentOf_eq, ofInstruments_eq, recordsOf, entries, Json.Value.get?, Keyed.find?_cons,
    if_pos rfl]
  simp only [Option.map_some, Option.getD_some, membersOf, List.flatMap_map, instrumentOf_eq,
    Json.Value.get?, Keyed.find?_cons, if_true, List.map_map]
  rfl

section Entries
variable {s : Snapshot} {records : List Record}

theorem mem_entries_iff (h : Tidy s) {r : Record} :
    r ∈ s.entries ↔ ∃ members, s.object? r.instrument r.parameter = some members ∧
      r.value = find? "value" members := by
  unfold entries object?
  rw [List.mem_flatMap]
  constructor
  · rintro ⟨⟨name, ps⟩, hi, hr⟩
    obtain ⟨⟨parameter, members⟩, hp, rfl⟩ := List.mem_map.1 hr
    have hps : s.parameters? name = some ps := h.mem_instruments_iff.1 hi
    refine ⟨members, ?_, rfl⟩
    rw [hps, Option.bind_some]
    exact (h.parameters name ps hps).find?_eq_some_iff.2 hp
  · rintro ⟨members, hm, hvalue⟩
    obtain ⟨ps, hps, hmembers⟩ := Option.bind_eq_some_iff.1 hm
    refine ⟨(r.instrument, ps), h.mem_instruments_iff.2 hps, List.mem_map.2 ?_⟩
    refine ⟨(r.parameter, members), (h.parameters _ ps hps).find?_eq_some_iff.1 hmembers, ?_⟩
    rw [← hvalue]

/-- If no parameter is recorded with two values, the last value is the only one. -/
theorem lastValue?_eq_some_iff
    (hone : ∀ name parameter v w, ⟨name, parameter, v⟩ ∈ records → ⟨name, parameter, w⟩ ∈ records →
      v = w) {name parameter : String} {value : Option Json.Value} :
    lastValue? records name parameter = some value ↔ ⟨name, parameter, value⟩ ∈ records := by
  have hmem : ∀ v, lastValue? records name parameter = some v → ⟨name, parameter, v⟩ ∈ records := by
    intro v hv
    obtain ⟨r, hr, rfl⟩ := Option.map_eq_some_iff.1 hv
    have hfor : r.IsFor name parameter := by simpa using List.find?_some hr
    obtain ⟨rfl, rfl⟩ := hfor
    exact List.mem_reverse.1 (List.mem_of_find?_eq_some hr)
  refine ⟨hmem value, fun hr => ?_⟩
  have hsome : (lastValue? records name parameter).isSome = true :=
    isSome_lastValue?_iff.2 ⟨_, hr, rfl, rfl⟩
  obtain ⟨last, hlast⟩ := Option.isSome_iff_exists.1 hsome
  rw [hlast, hone name parameter last value (hmem last hlast) hr]

/-- A snapshot without empty instruments, in which values are all that parameters hold, comes from
recording its parameters in any order, also repeatedly. -/
theorem recordAll_of_mem_entries_iff (h : Tidy s)
    (hrecords : ∀ r, r ∈ records ↔ r ∈ s.entries)
    (hsome : ∀ name, (s.parameters? name).isSome = true → ∃ r ∈ records, r.instrument = name)
    (hvalue : ∀ name parameter members, s.object? name parameter = some members →
      parameterOf (find? "value" members) = members) : recordAll {} records = s := by
  have hmem : ∀ {r}, r ∈ records ↔ ∃ members, s.object? r.instrument r.parameter = some members ∧
      r.value = find? "value" members := fun {r} => (hrecords r).trans (mem_entries_iff h)
  have hlast : ∀ {name parameter value}, lastValue? records name parameter = some value ↔
      ⟨name, parameter, value⟩ ∈ records := by
    apply lastValue?_eq_some_iff
    intro name parameter v w hv hw
    obtain ⟨members, hm, rfl⟩ := hmem.1 hv
    obtain ⟨others, ho, rfl⟩ := hmem.1 hw
    cases hm.symm.trans ho
    rfl
  have hshown : Reflects (recordAll {} records) records := reflects_recordAll records
  refine hshown.tidy.ext h (fun name => ?_) (fun name parameter => ?_)
  · rw [Bool.eq_iff_iff, hshown.instruments]
    refine ⟨?_, hsome name⟩
    rintro ⟨r, hr, rfl⟩
    obtain ⟨members, hm, -⟩ := hmem.1 hr
    obtain ⟨ps, hps, -⟩ := Option.bind_eq_some_iff.1 hm
    rw [hps]
    rfl
  · rw [hshown.objects]
    refine Option.ext fun members => ?_
    rw [Option.map_eq_some_iff]
    constructor
    · rintro ⟨value, hv, rfl⟩
      obtain ⟨others, ho, rfl⟩ := hmem.1 (hlast.1 hv)
      rw [ho, hvalue name parameter others ho]
    · intro hm
      exact ⟨find? "value" members, hlast.2 (hmem.2 ⟨members, hm, rfl⟩),
        hvalue name parameter members hm⟩

end Entries

theorem parameterOf_of_holdsOnlyValue {members : Json.Members}
    (h : HoldsOnlyValue (.object members)) : parameterOf (find? "value" members) = members := by
  obtain ⟨_, he, hordered, hkeys⟩ := h
  cases he
  cases members with
  | nil => rfl
  | cons first rest =>
    obtain ⟨key, value⟩ := first
    have hfirst : key = "value" := hkeys key (List.mem_cons_self ..)
    subst hfirst
    cases rest with
    | nil =>
      rw [Keyed.find?_cons, if_pos rfl]
      rfl
    | cons second rest =>
      -- two equal keys cannot both be in order
      have hlt := (List.pairwise_cons.1 hordered).1 second (List.mem_cons_self ..)
      have hsecond : second.1 = "value" :=
        hkeys second.1 (List.mem_cons_of_mem _ (List.mem_cons_self ..))
      exact absurd hsecond.symm (Keyed.precedes_ne hlt)

/-! ## All three -/

/-- In the document, the last of equal names stands. -/
theorem parameterAt?_documentOf_eq_lookup
    (instruments : List (String × List (String × Json.Members))) (name parameter : String) :
    parameterAt? (documentOf instruments) name parameter =
      ((instruments.reverse.lookup name).bind fun parameters =>
        parameters.reverse.lookup parameter).map .object := by
  rw [parameterAt?_documentOf, object?, parameters?_ofInstruments, Keyed.find?_ofList]
  cases instruments.reverse.lookup name with
  | none => rfl
  | some parameters =>
    rw [Option.map_some, Option.bind_some, Option.bind_some, Keyed.find?_ofList]

/-- The records of a document that holds nothing else give its snapshot. -/
theorem recordAll_of_mem_recordsOf_iff {instruments : List (String × List (String × Json.Members))}
    {records : List Record}
    (hsome : ∀ name, (instrumentAt? (documentOf instruments) name).isSome = true →
      ∃ parameter, (parameterAt? (documentOf instruments) name parameter).isSome = true)
    (honly : ∀ name parameter object,
      parameterAt? (documentOf instruments) name parameter = some object → HoldsOnlyValue object)
    (hrecords : ∀ r, r ∈ records ↔ r ∈ recordsOf (documentOf instruments)) :
    recordAll {} records = ofInstruments instruments := by
  have htidy : Tidy (ofInstruments instruments) := tidy_ofInstruments instruments
  have hparameter := parameterAt?_documentOf instruments
  rw [recordsOf_documentOf] at hrecords
  refine recordAll_of_mem_entries_iff htidy hrecords (fun name hname => ?_)
    (fun name parameter members hm => ?_)
  · have hinstrument : (instrumentAt? (documentOf instruments) name).isSome = true := by
      rw [instrumentAt?_documentOf, Option.isSome_map]
      rw [parameters?_ofInstruments, Option.isSome_map] at hname
      exact hname
    obtain ⟨parameter, hp⟩ := hsome name hinstrument
    rw [hparameter, Option.isSome_map] at hp
    obtain ⟨members, hm⟩ := Option.isSome_iff_exists.1 hp
    exact ⟨⟨name, parameter, find? "value" members⟩,
      (hrecords _).2 ((mem_entries_iff htidy).2 ⟨members, hm, rfl⟩), rfl⟩
  · apply parameterOf_of_holdsOnlyValue
    apply honly name parameter
    rw [hparameter, hm, Option.map_some]

/-- Instruments give the snapshot that their document is read as, in which the last of equal names
stands. If every instrument of the document has a parameter, and no parameter holds more than a
value, recording these values in any order gives it, too. -/
theorem builders_agree (instruments : List (String × List (String × Json.Members))) :
    let document := documentOf instruments
    let s := ofInstruments instruments
    (∀ name parameter, parameterAt? document name parameter =
        ((instruments.reverse.lookup name).bind fun parameters =>
          parameters.reverse.lookup parameter).map .object) ∧
      (∃ t, ofDocument document = .ok t ∧ s = t ∧ s.same t = true ∧ s.values = t.values) ∧
      ((∀ name, (instrumentAt? document name).isSome = true →
          ∃ parameter, (parameterAt? document name parameter).isSome = true) →
        (∀ name parameter object, parameterAt? document name parameter = some object →
          HoldsOnlyValue object) →
        ∀ records, (∀ r, r ∈ records ↔ r ∈ recordsOf document) →
          recordAll {} records = s ∧ (recordAll {} records).same s = true ∧
            (recordAll {} records).values = s.values) := by
  intro document s
  refine ⟨parameterAt?_documentOf_eq_lookup instruments,
    ⟨s, ofDocument_documentOf instruments, rfl, same_refl s, rfl⟩,
    fun hsome honly records hrecords => ?_⟩
  rw [recordAll_of_mem_recordsOf_iff hsome honly hrecords]
  exact ⟨rfl, same_refl s, rfl⟩

/-- A name that comes twice, the second time with another parameter. -/
def renamed : List (String × List (String × Json.Members)) :=
  [("yoko", [("voltage", [("unit", .string "V")])]), ("ah", [("cap", [])]),
    ("yoko", [("output", []), ("output", [("value", .bool true)])])]

/-- What stands of it. -/
def standing : List Record :=
  [⟨"yoko", "output", some (.bool true)⟩, ⟨"ah", "cap", none⟩]

theorem builders_agree_renamed :
    recordsOf (documentOf renamed) = standing.reverse ∧
      recordAll {} standing = ofInstruments renamed ∧
      (recordAll {} standing).values = (ofInstruments renamed).values ∧
      (ofInstruments renamed).values = [("ah", [("cap", "")]), ("yoko", [("output", "True")])] := by
  have hrecords : recordsOf (documentOf renamed) = standing.reverse := rfl
  have hsome : ∀ name, (instrumentAt? (documentOf renamed) name).isSome = true →
      ∃ parameter, (parameterAt? (documentOf renamed) name parameter).isSome = true := by
    intro name hname
    have hnames : name ∈ ["ah", "yoko"] := by
      rw [instrumentAt?_documentOf, Option.isSome_map] at hname
      exact Keyed.mem_keys_iff.2 hname
    simp only [List.mem_cons, List.not_mem_nil, or_false] at hnames
    rcases hnames with rfl | rfl
    · exact ⟨"cap", rfl⟩
    · exact ⟨"output", rfl⟩
  have honly : ∀ name parameter object,
      parameterAt? (documentOf renamed) name parameter = some object → HoldsOnlyValue object := by
    intro name parameter object h
    rw [parameterAt?_documentOf] at h
    obtain ⟨members, hm, rfl⟩ := Option.map_eq_some_iff.1 h
    obtain ⟨ps, hps, hmembers⟩ := Option.bind_eq_some_iff.1 hm
    have hinstrument : (name, ps) ∈ [("ah", [("cap", [])]),
        ("yoko", [("output", [("value", Json.Value.bool true)])])] :=
      Keyed.mem_of_lookup_eq_some hps
    have hparameter := Keyed.mem_of_lookup_eq_some hmembers
    simp only [List.mem_cons, List.not_mem_nil, or_false, Prod.mk.injEq] at hinstrument
    rcases hinstrument with ⟨-, rfl⟩ | ⟨-, rfl⟩
    · cases List.mem_singleton.1 hparameter
      exact ⟨[], rfl, List.Pairwise.nil, by simp⟩
    · cases List.mem_singleton.1 hparameter
      exact ⟨_, rfl, List.pairwise_singleton .., by simp⟩
  obtain ⟨-, -, hagree⟩ := builders_agree renamed
  obtain ⟨hsame, -, hvalues⟩ := hagree hsome honly standing fun r => by
    rw [hrecords, List.mem_reverse]
  exact ⟨hrecords, hsame, hvalues, by decide⟩

end ArrayStore.Snapshot
