import ArrayStore.Config.Load
import ArrayStore.Proofs.Config.Overrides
import ArrayStore.Proofs.Config.Reading
import ArrayStore.Proofs.Toml.Ordered

/-!
# Variables over the file over the defaults

* `FileHolds` : the table that the file of a path holds, empty if the file is missing;
* `valueAt?`, `choice` : what the file has for a field; what is chosen for it;
* `fileSettings_of_holds` : the settings of the file stand at the same fields;
* `load_by_choice` : loading reads each field from what is chosen for it, and from nothing else, and
  validates the result.
-/

namespace ArrayStore.Config
open Keyed (Ordered find?)

/-! ## The file -/

/-- The table that the file of a path holds; a missing file is like an empty one. -/
inductive FileHolds (tree : FileTree) (directory : List String) (path : String) :
    List (String × Toml.Value) → Prop
  | missing (hfind : findFile? tree directory path = none) : FileHolds tree directory path []
  | table {folder : List String} {content : String} {entries : List (String × Toml.Value)}
    (hfind : findFile? tree directory path = some folder)
    (hcontent : tree.content? folder path = some content)
    (hread : Toml.read? content = some entries) : FileHolds tree directory path entries

/-- What the file has for a field. -/
def valueAt? (entries : List (String × Toml.Value)) (f : FieldName) : Option Toml.Value :=
  match find? f.home.key entries with
  | some (.table fields) => find? f.key fields
  | _ => none

/-- What a value of a file is as a setting. -/
def Found.ofToml : Toml.Value → Found
  | .bool value => .scalar (.bool value)
  | .integer value => .scalar (.signed value)
  | .float value => .scalar (.float value)
  | .string text => .scalar (.text text)
  | .dateTime _ => .table
  | .array _ => .sequence
  | .table _ => .table

theorem found_ofToml (source : Source) (v : Toml.Value) :
    (Setting.ofToml source v).found = Found.ofToml v := by
  cases v <;> rw [Setting.ofToml] <;> rfl

theorem ofTomlEntries_eq_map (source : Source) (entries : List (String × Toml.Value)) :
    Setting.ofTomlEntries source entries =
      entries.map fun entry => (entry.1, Setting.ofToml source entry.2) := by
  induction entries with
  | nil => rw [Setting.ofTomlEntries, List.map_nil]
  | cons entry entries ih => rw [Setting.ofTomlEntries, ih, List.map_cons]

theorem find?_ofTomlEntries (source : Source) (key : String)
    (entries : List (String × Toml.Value)) :
    find? key (Setting.ofTomlEntries source entries) =
      (find? key entries).map (Setting.ofToml source) := by
  rw [ofTomlEntries_eq_map, Keyed.find?_map]

theorem ordered_ofTomlEntries {entries : List (String × Toml.Value)} (h : Ordered entries)
    (source : Source) : Ordered (Setting.ofTomlEntries source entries) := by
  rw [ofTomlEntries_eq_map]
  exact h.map fun _ v => Setting.ofToml source v

/-- The sections are tables, if they are there. -/
def HasSectionTables (entries : List (String × Toml.Value)) : Prop :=
  ∀ t : Section, ∀ v ∈ find? t.key entries, ∃ fields, v = .table fields

theorem sectioned_ofTomlEntries {text : String} {entries : List (String × Toml.Value)}
    (hread : Toml.read? text = some entries) (hs : HasSectionTables entries) (source : Source) :
    Sectioned (Setting.ofTomlEntries source entries) := by
  obtain ⟨hordered, hvalues⟩ := Toml.read?_ordered hread
  refine ⟨ordered_ofTomlEntries hordered source, fun t s hm => ?_⟩
  rw [find?_ofTomlEntries] at hm
  obtain ⟨v, hv, rfl⟩ := Option.map_eq_some_iff.1 hm
  obtain ⟨fields, rfl⟩ := hs t v hv
  exact ⟨_, source, by rw [Setting.ofToml], ordered_ofTomlEntries (hvalues t.key _ hv) source⟩

theorem foundAt_ofTomlEntries {entries : List (String × Toml.Value)} (hs : HasSectionTables entries)
    (source : Source) (f : FieldName) :
    foundAt (Setting.ofTomlEntries source entries) f = (valueAt? entries f).map Found.ofToml := by
  unfold foundAt at? valueAt?
  rw [find?_ofTomlEntries]
  cases hv : find? f.home.key entries with
  | none => rfl
  | some v =>
    obtain ⟨fields, rfl⟩ := hs f.home v hv
    rw [Option.map_some, Option.bind_some, Setting.ofToml, Setting.child?, find?_ofTomlEntries,
      Option.map_map]
    exact congrArg (Option.map · _) (funext (found_ofToml source))

theorem fileSettings_of_holds {tree : FileTree} {directory : List String} {path : String}
    {entries : List (String × Toml.Value)} (hfile : FileHolds tree directory path entries)
    (hs : HasSectionTables entries) :
    ∃ settings, fileSettings tree directory path = .ok settings ∧ Sectioned settings ∧
      ∀ f, foundAt settings f = (valueAt? entries f).map Found.ofToml := by
  cases hfile with
  | missing hfind =>
    refine ⟨[], by rw [fileSettings, hfind], ⟨List.Pairwise.nil, ?_⟩, fun _ => rfl⟩
    intro t s hm
    cases hm
  | @table folder content _ hfind hcontent hread =>
    refine ⟨_, ?_, sectioned_ofTomlEntries hread hs (.file (shownPath directory folder path)),
      foundAt_ofTomlEntries hs _⟩
    simp only [fileSettings, hfind, hcontent, hread]

/-! ## Loading -/

/-- What is chosen for a field: the value of its variable, or else that of the file. -/
def choice (overrides : List Override) (entries : List (String × Toml.Value)) (f : FieldName) :
    Option Found :=
  ((literalOf? overrides f).map Setting.found).or ((valueAt? entries f).map Found.ofToml)

theorem load_eq_ofSettings {overrides : List Override} (hn : (overrides.map Override.field).Nodup)
    {tree : FileTree} {directory : List String} {path : String} {file : Settings}
    (hfile : fileSettings tree directory path = .ok file) :
    load tree directory (overrides.map Override.assignment) path =
      ofSettings file (layered overrides) := by
  rw [load, settings_assignments hn, hfile]
  rfl

theorem ofSettings_bad {file environment : Settings}
    (h : Sectioned (Setting.mergeEntries file environment)) {f : FieldName} {found : Found}
    (hf : foundAt (Setting.mergeEntries file environment) f = some found)
    (hbad : f.read? found = none) :
    ∃ fault, ofSettings file environment = .error (.config fault) := by
  obtain ⟨fault, hfault⟩ := toConfig_bad h hf hbad
  exact ⟨fault, by rw [ofSettings, hfault]⟩

theorem ofSettings_good {file environment : Settings}
    (h : Sectioned (Setting.mergeEntries file environment))
    (hgood : ∀ f found, foundAt (Setting.mergeEntries file environment) f = some found →
      f.read? found ≠ none) :
    ∃ c : Config, c.Shows (foundAt (Setting.mergeEntries file environment)) ∧
      ofSettings file environment = c.validate := by
  obtain ⟨c, hc, hshows⟩ := toConfig_good h hgood
  exact ⟨c, hshows, by rw [ofSettings, hc]⟩

theorem validate_ne_config (c : Config) (fault : Fault) : c.validate ≠ .error (.config fault) := by
  unfold validate
  split <;> simp

/-- Each field is read from what is chosen for it. Loading fails on the sources just if a field
takes nothing from that; else the configuration shows what is chosen, and loading fails just if that
is invalid. The order of the variables does not matter. -/
theorem load_by_choice {tree : FileTree} {directory : List String} {path : String}
    {entries : List (String × Toml.Value)} (hfile : FileHolds tree directory path entries)
    (hs : HasSectionTables entries) {overrides : List Override}
    (hn : (overrides.map Override.field).Nodup) :
    let outcome := load tree directory (overrides.map Override.assignment) path
    let chosen := choice overrides entries
    ((∃ fault, outcome = .error (.config fault)) ↔
      ∃ f found, chosen f = some found ∧ f.read? found = none) ∧
    ((∀ f found, chosen f = some found → f.read? found ≠ none) →
      ∃ c : Config, c.Shows chosen ∧
        (∀ invalid, c.check = .error invalid →
          outcome = .error (.configuration invalid.text)) ∧
        (c.check = .ok () → outcome = .ok c)) ∧
    ∀ others, overrides.Perm others →
      load tree directory (others.map Override.assignment) path = outcome := by
  dsimp only
  obtain ⟨file, hfile, hsectioned, hfound⟩ := fileSettings_of_holds hfile hs
  have hlayered := (fromVariables_layered overrides).sectioned
  have hmerged := hsectioned.mergeEntries hlayered
  have hchoice : foundAt (Setting.mergeEntries file (layered overrides)) =
      choice overrides entries := by
    funext f
    rw [foundAt_mergeEntries hsectioned hlayered, foundAt_layered hn, hfound]
    rfl
  have hgood := ofSettings_good hmerged
  rw [hchoice] at hgood
  rw [load_eq_ofSettings hn hfile]
  refine ⟨⟨fun ⟨fault, hfault⟩ => ?_, fun ⟨f, found, hf, hbad⟩ => ?_⟩, fun h => ?_,
    fun others hp => ?_⟩
  · by_contra hall
    obtain ⟨c, -, hc⟩ := hgood fun f found hf hbad => hall ⟨f, found, hf, hbad⟩
    exact validate_ne_config c fault (hc.symm.trans hfault)
  · exact ofSettings_bad hmerged (by rw [hchoice]; exact hf) hbad
  · obtain ⟨c, hshows, hc⟩ := hgood h
    refine ⟨c, hshows, fun invalid hinvalid => ?_, fun hvalid => ?_⟩
    · rw [hc, validate, hinvalid]
    · rw [hc, validate, hvalid]
  · rw [load_eq_ofSettings ((hp.map _).nodup_iff.1 hn) hfile, layered_perm hp hn]

/-! ## A file and two variables -/

/-- The number of rows is none in the file, which does no harm under a variable. -/
def mixedFile : String := "[storage]\nchunk_rows = \"many\"\ncompression_level = 3\n"

def mixedTree : FileTree := .folder [("format.toml", .file mixedFile)]

def mixedEntries : List (String × Toml.Value) :=
  [("storage", .table [("chunk_rows", .string "many"), ("compression_level", .integer 3)])]

theorem read?_mixedFile : Toml.read? mixedFile = some mixedEntries := by
  have hlines : Toml.readLines mixedFile.toList.length mixedFile.toList =
      some [.table ["storage"], .pair ["chunk_rows"] (.string "many"),
        .pair ["compression_level"] (.integer 3)] := by decide +kernel
  have hmark : Toml.skipMark mixedFile.toList = mixedFile.toList := by rfl
  simp only [Toml.read?, hmark, hlines, Option.bind_eq_bind, Option.bind_some]
  rfl

def mixedOverrides : List Override :=
  [⟨.chunkRows, "RustDAQ_Storage__Chunk_Rows", "128", .scalar (.unsigned 128) .environment,
      by decide, by rfl⟩,
    ⟨.logLevel, "RUSTDAQ_APPLICATION__LOG_LEVEL", "debug", .scalar (.text "debug") .environment,
      by decide, by rfl⟩]

def mixedConfig : Config where
  application := { logLevel := "debug" }
  storage := { chunkRows := 128, compressionLevel := 3 }

theorem load_by_choice_mixed :
    load mixedTree [] (mixedOverrides.map Override.assignment) "format.toml" = .ok mixedConfig := by
  have hfind : findFile? mixedTree [] "format.toml" = some [] := by decide
  have hfile : FileHolds mixedTree [] "format.toml" mixedEntries :=
    .table hfind (by rfl) read?_mixedFile
  have hs : HasSectionTables mixedEntries := by
    intro t v hv
    cases t with
    | application => cases hv
    | storage => exact ⟨_, (Option.some.inj hv).symm⟩
  have hshows : mixedConfig.Shows (choice mixedOverrides mixedEntries) := by
    intro f
    cases f <;> rfl
  have hn : (mixedOverrides.map Override.field).Nodup := by decide
  obtain ⟨-, hgood, -⟩ := load_by_choice hfile hs hn
  obtain ⟨c, hc, -, hvalid⟩ := hgood hshows.reads
  rw [hc.unique hshows] at hvalid
  exact hvalid (by decide)

end ArrayStore.Config
