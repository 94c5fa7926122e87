import ArrayStore.Proofs.Config.Literals
import ArrayStore.Proofs.Config.OneVariable

/-!
# The base location by a variable

* `alone_over_fault`, `toConfig_over_fault` : a base location that is no text is the fault of its
  section, and of the whole;
* `load_location_text`, `load_location_other`, `load_location_error` : the base location is the
  text that the variable is read as, anything else that it is read as is refused;
* `load_baseLocation` : so it is the text of the variable just if that is read as itself;
* `exists_load_baseLocation_ne` : a year is not.
-/

namespace ArrayStore.Config
open Keyed (Ordered find?)

/-! ## Faults -/

/-- A setting of the base location that is no text is the fault of its section, whose other fields
are right. -/
theorem alone_over_fault {o : Override} (ho : o.field = .baseLocation) {earlier : Option Setting}
    (h : Ordered (tableOf earlier)) {c : Config} (hc : alone o.field.home earlier = .ok c)
    (hbad : o.literal.found.text? = none) :
    alone o.field.home (some (.table (o.over earlier) .environment)) =
      .error (.wrongKind o.literal.found .path ["storage", "base_location"] o.literal.source) := by
  have hordered := ordered_over o h
  have hself := find?_over o earlier o.field
  rw [if_pos rfl] at hself
  have hfault (c : Storage) :
      fieldStep Setting.setStorage c
        (o.field.key, o.literal.onto (find? o.field.key (tableOf earlier))) =
      .error (.wrongKind o.literal.found .path ["storage", "base_location"] o.literal.source) := by
    rw [fieldStep, ho, setStorage_baseLocation (by rw [Setting.found_onto, hbad]),
      Setting.found_onto, Setting.source_onto]
  have hrun : (o.over earlier).foldlM (fieldStep Setting.setStorage) {} =
      .error (.wrongKind o.literal.found .path ["storage", "base_location"] o.literal.source) := by
    have hreads := readsEntry_of_sets (fun f hf => sets_setStorage hf)
      fun g s hg => setStorage_other hg s
    refine ReadsEntry.run_fault (i := ⟨o.field, by rw [ho]; rfl⟩) hordered.nodup
      (fun entry _ => hreads entry) (hordered.find?_eq_some_iff.1 hself) hfault
      (fun j w hj hw => ?_) {}
    refine read?_over h hc (j.2.trans (by rw [ho]; rfl)) (fun heq => hj (Subtype.ext heq))
      (hordered.find?_eq_some_iff.2 hw)
  rw [ho]
  show Setting.setSection {} Section.storage.key _ = _
  rw [setSection_storage, hrun]
  rfl

/-- A base location that is no text is the fault of the whole. -/
theorem toConfig_over_fault {file : Settings} (h : Tabular file) {c : Config}
    (hc : Setting.toConfig file = .ok c) {o : Override} (ho : o.field = .baseLocation)
    (hbad : o.literal.found.text? = none) :
    Setting.toConfig (Setting.mergeEntries file o.settings) =
      .error (.wrongKind o.literal.found .path ["storage", "base_location"] o.literal.source) := by
  have hmakes := (toConfig_eq_ok_iff h.ordered).1 hc
  refine toConfig_fault (t := o.field.home) (ordered_mergeEntries h.ordered _)
    (by rw [find?_mergeEntries_settings, if_pos rfl])
    (alone_over_fault ho (h.tableOf _) (hmakes o.field.home) hbad) fun j hj => ?_
  rw [find?_mergeEntries_settings, if_neg hj]
  exact ⟨_, hmakes j⟩

/-! ## Loading -/

/-- The variable of the base location, with a text that is read as the setting. -/
def locationOverride {v : String} {s : Setting} (h : Variable.settingOf v = .ok s) : Override where
  field := .baseLocation
  name := "RUSTDAQ_STORAGE__BASE_LOCATION"
  text := v
  literal := s
  spells := by decide
  reads := h

/-- The check does not look at the base location, and the defaults pass it. -/
theorem check_of_held {c d : Config} (hc : c.check = .ok ())
    (h : ∀ g : FieldName, g ≠ .baseLocation →
      d.held g = c.held g ∨ d.held g = ({} : Config).held g) :
    d.check = .ok () := by
  refine (check_eq_ok_iff d).2 fun g => ?_
  by_cases hg : g = .baseLocation
  · subst hg
    exact trivial
  · rcases h g hg with hheld | hheld
    · rw [hheld]
      exact (check_eq_ok_iff c).1 hc g
    · rw [hheld]
      exact (check_eq_ok_iff {}).1 (by decide) g

section Loading
variable {tree : FileTree} {directory : List String} {path : String} {c₀ : Config} {v : String}

/-- The base location is the text that the variable is read as. -/
theorem load_location_text (hfile : load tree directory [] path = .ok c₀) {text : String}
    {source : Source} (hreads : Variable.settingOf v = .ok (.scalar (.text text) source)) :
    ∃ c, load tree directory [("RUSTDAQ_STORAGE__BASE_LOCATION", v)] path = .ok c ∧
      c.storage.baseLocation = text := by
  obtain ⟨file, hfile, hc, hvalid⟩ := load_eq_ok hfile
  have hread : (locationOverride hreads).field.read? (locationOverride hreads).literal.found =
      some (.text text) := rfl
  obtain ⟨d, hd, hself, hothers⟩ := toConfig_over (tabular_fileSettings hfile) hc hread
  have hload := load_override hfile (locationOverride hreads)
  rw [ofSettings_eq_ok_iff.2 ⟨hd, check_of_held hvalid hothers⟩] at hload
  exact ⟨d, hload, Held.text.inj hself⟩

/-- A variable that is read as no text is refused. -/
theorem load_location_other (hfile : load tree directory [] path = .ok c₀) {s : Setting}
    (hreads : Variable.settingOf v = .ok s) (hbad : s.found.text? = none) :
    load tree directory [("RUSTDAQ_STORAGE__BASE_LOCATION", v)] path = .error
      (.config (.wrongKind s.found .path ["storage", "base_location"] .environment)) := by
  obtain ⟨file, hfile, hc, -⟩ := load_eq_ok hfile
  have hfault := toConfig_over_fault (o := locationOverride hreads) (tabular_fileSettings hfile) hc
    rfl hbad
  refine (load_override hfile (locationOverride hreads)).trans ?_
  rw [ofSettings, hfault]
  show _ = Except.error (StoreError.config (.wrongKind s.found _ _ .environment))
  rw [← Variable.source_of_settingOf hreads]
  rfl

theorem load_location_error {e : StoreError} (hreads : Variable.settingOf v = .error e) :
    load tree directory [("RUSTDAQ_STORAGE__BASE_LOCATION", v)] path = .error e := by
  have hkeys : Variable.keys? "RUSTDAQ_STORAGE__BASE_LOCATION" =
      some ["storage", "base_location"] :=
    keys?_of_variable (f := .baseLocation) (by decide)
  have hsettings : Variable.settings [("RUSTDAQ_STORAGE__BASE_LOCATION", v)] = .error e := by
    unfold Variable.settings
    rw [environment_of_nodup (by simp), List.foldlM_cons]
    simp only [hkeys, hreads]
    rfl
  rw [load, hsettings]
  rfl

theorem settingOf_of_load_location (hfile : load tree directory [] path = .ok c₀) {c : Config}
    (hload : load tree directory [("RUSTDAQ_STORAGE__BASE_LOCATION", v)] path = .ok c) :
    Variable.settingOf v = .ok (.scalar (.text c.storage.baseLocation) .environment) := by
  cases hreads : Variable.settingOf v with
  | error e =>
    rw [load_location_error hreads] at hload
    cases hload
  | ok s =>
    cases hfound : s.found.text? with
    | none =>
      rw [load_location_other hfile hreads hfound] at hload
      cases hload
    | some text =>
      obtain ⟨source, rfl⟩ := exists_source_of_text? hfound
      obtain ⟨d, hd, hlocation⟩ := load_location_text hfile hreads
      rw [hload] at hd
      cases hd
      have hsource : source = .environment := Variable.source_of_settingOf hreads
      rw [hlocation, hsource]

/-- Over a file that is right by itself, or missing, the base location is the text that the variable
is read as. A number, a boolean, a list or a table is refused. So the base location is the text of
the variable just if that is read as itself, and so is every one that looks like no other value. -/
theorem load_baseLocation (hfile : load tree directory [] path = .ok c₀) (v : String) :
    let outcome := load tree directory [("RUSTDAQ_STORAGE__BASE_LOCATION", v)] path
    (∀ text source, Variable.settingOf v = .ok (.scalar (.text text) source) →
      ∃ c, outcome = .ok c ∧ c.storage.baseLocation = text) ∧
    (∀ s, Variable.settingOf v = .ok s → s.found.text? = none →
      outcome = .error
        (.config (.wrongKind s.found .path ["storage", "base_location"] .environment))) ∧
    ((∃ c, outcome = .ok c ∧ c.storage.baseLocation = v) ↔
      Variable.settingOf v = .ok (.scalar (.text v) .environment)) ∧
    (Variable.IsName v.toList → ∃ c, outcome = .ok c ∧ c.storage.baseLocation = v) := by
  dsimp only
  refine ⟨fun text source => load_location_text hfile, fun s => load_location_other hfile,
    ⟨?_, load_location_text hfile⟩, fun hname => ?_⟩
  · rintro ⟨c, hload, rfl⟩
    exact settingOf_of_load_location hfile hload
  · exact load_location_text hfile (Variable.settingOf_of_isName hname)

end Loading

/-! ## A folder and a year -/

def suffixedFile : String := "[storage]\nfile_extension = \"h5\"\n"

def suffixedTree : FileTree := .folder [("format.toml", .file suffixedFile)]

def suffixedConfig : Config where
  storage := { fileExtension := "h5" }

theorem load_suffixedTree : load suffixedTree [] [] "format.toml" = .ok suffixedConfig := by
  have hlines : Toml.readLines suffixedFile.toList.length suffixedFile.toList =
      some [.table ["storage"], .pair ["file_extension"] (.string "h5")] := by decide +kernel
  have hmark : Toml.skipMark suffixedFile.toList = suffixedFile.toList := by rfl
  have hread : Toml.read? suffixedFile =
      some [("storage", .table [("file_extension", .string "h5")])] := by
    simp only [Toml.read?, hmark, hlines, Option.bind_eq_bind, Option.bind_some]
    rfl
  have hfind : findFile? suffixedTree [] "format.toml" = some [] := by decide
  have hcontent : suffixedTree.content? [] "format.toml" = some suffixedFile := by rfl
  have hfile : fileSettings suffixedTree [] "format.toml" =
      .ok (Setting.ofTomlEntries (.file (shownPath [] [] "format.toml"))
        [("storage", .table [("file_extension", .string "h5")])]) := by
    simp only [fileSettings, hfind, hcontent, hread]
  have hload : load suffixedTree [] [] "format.toml" =
      ofSettings (Setting.ofTomlEntries (.file (shownPath [] [] "format.toml"))
        [("storage", .table [("file_extension", .string "h5")])]) [] := by
    rw [load, hfile]
    rfl
  rw [hload, ofSettings_eq_ok_iff]
  exact ⟨by rfl, by decide⟩

theorem load_baseLocation_suffixedTree :
    load suffixedTree [] [] "format.toml" = .ok suffixedConfig ∧
    (∃ c, load suffixedTree [] [("RUSTDAQ_STORAGE__BASE_LOCATION", "/mnt/daq")] "format.toml" =
      .ok c ∧ c.storage.baseLocation = "/mnt/daq") ∧
    load suffixedTree [] [("RUSTDAQ_STORAGE__BASE_LOCATION", "2024")] "format.toml" = .error
      (.config (.wrongKind (.scalar (.unsigned 2024)) .path ["storage", "base_location"]
        .environment)) := by
  obtain ⟨-, -, -, hname⟩ := load_baseLocation load_suffixedTree "/mnt/daq"
  obtain ⟨-, hother, -, -⟩ := load_baseLocation load_suffixedTree "2024"
  have hslash : Variable.IsName "/mnt/daq".toList :=
    ⟨by decide, by intro c hc; cases hc; rfl, by decide, by decide, by decide⟩
  have hyear : Variable.settingOf "2024" = .ok (.scalar (.unsigned 2024) .environment) := by rfl
  exact ⟨load_suffixedTree, hname hslash, hother _ hyear rfl⟩

/-- Where nothing else is set, a year is no base location. -/
theorem exists_load_baseLocation_ne :
    ∃ v : String, v ≠ "" ∧ '\x00' ∉ v.toList ∧ load (.folder []) [] [] "format.toml" = .ok {} ∧
      ¬∃ c, load (.folder []) [] [("RUSTDAQ_STORAGE__BASE_LOCATION", v)] "format.toml" = .ok c ∧
        c.storage.baseLocation = v := by
  refine ⟨"2024", by decide, by decide, by rfl, ?_⟩
  have hyear : Variable.settingOf "2024" = .ok (.scalar (.unsigned 2024) .environment) := by rfl
  have hnone : load (.folder []) [] [] "format.toml" = .ok {} := by rfl
  rintro ⟨c, hload, -⟩
  rw [load_location_other hnone hyear rfl] at hload
  cases hload

end ArrayStore.Config
