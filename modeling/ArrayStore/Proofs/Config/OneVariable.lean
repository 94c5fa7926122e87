import ArrayStore.Proofs.Config.Precedence
import ArrayStore.Proofs.Config.Sections

/-!
# One variable over a file

* `Override.over` : the entries of a section with the setting of a variable over them; a list makes
  way for a table, so that its other fields have their defaults again;
* `alone_over`, `toConfig_over` : over a section, and over a file, that is right without the
  variable: if the field takes the setting, it holds that, and any other field holds what it did or
  its default;
* `tabular_fileSettings` : the settings of a file are in the order of their keys, whatever its
  sections are;
* `load_eq_ok`, `load_override` : loading without variables, and with one.
-/

namespace ArrayStore.Config
open Keyed (Ordered find?)

/-! ## A variable over a section -/

/-- The entries of a section with the setting of the variable over them. -/
def Override.over (o : Override) (earlier : Option Setting) : Settings :=
  Keyed.insert o.field.key (o.literal.onto (find? o.field.key (tableOf earlier))) (tableOf earlier)

theorem ordered_over (o : Override) {earlier : Option Setting} (h : Ordered (tableOf earlier)) :
    Ordered (o.over earlier) :=
  h.insert _ _

theorem find?_over (o : Override) (earlier : Option Setting) (g : FieldName) :
    find? g.key (o.over earlier) =
      if g = o.field then some (o.literal.onto (find? o.field.key (tableOf earlier)))
      else find? g.key (tableOf earlier) := by
  simp only [Override.over, Keyed.find?_insert, FieldName.key_injective.eq_iff]

/-- What stands at another field of the section stood there before, and the field takes it. -/
theorem read?_over {o : Override} {earlier : Option Setting} (h : Ordered (tableOf earlier))
    {c : Config} (hc : alone o.field.home earlier = .ok c) {g : FieldName}
    (hhome : g.home = o.field.home) (hg : g ≠ o.field) {s : Setting}
    (hs : find? g.key (o.over earlier) = some s) : g.read? s.found ≠ none := by
  rw [find?_over, if_neg hg] at hs
  rcases value?_of_alone h hc hhome with hnone | hheld
  · rw [hnone] at hs
    cases hs
  · rw [hs, Option.map_some, FieldName.value?] at hheld
    simp [hheld]

theorem table_onto (o : Override) (earlier : Option Setting) :
    (Setting.table [(o.field.key, o.literal)] .environment).onto earlier =
      .table (o.over earlier) .environment := by
  cases earlier with
  | none => rfl
  | some old =>
    cases old with
    | table entries source =>
      show Setting.table (Setting.mergeEntries entries [(o.field.key, o.literal)]) .environment = _
      rw [mergeEntries_cons]
      rfl
    | _ => rfl

/-- If the field takes the setting of its variable, it holds that; what else stands in the section
stays. -/
theorem alone_over (o : Override) {earlier : Option Setting} (h : Ordered (tableOf earlier))
    {c : Config} (hc : alone o.field.home earlier = .ok c) {value : Held}
    (hread : o.field.read? o.literal.found = some value) :
    ∃ d, alone o.field.home (some (.table (o.over earlier) .environment)) = .ok d ∧
      d.held o.field = value ∧
      ∀ g : FieldName, g.home = o.field.home → g ≠ o.field →
        d.held g = c.held g ∨ d.held g = ({} : Config).held g := by
  have hgood (g : FieldOf o.field.home) (s : Setting)
      (hs : find? g.1.key (o.over earlier) = some s) : g.1.read? s.found ≠ none := by
    by_cases hg : g.1 = o.field
    · rw [find?_over, if_pos hg] at hs
      cases hs
      rw [hg, Setting.found_onto, hread]
      simp
    · exact read?_over h hc g.2 hg hs
  obtain ⟨d, hd, hvalue, -⟩ :=
    (setsSection_setSection o.field.home (ordered_over o h) .environment {}).good hgood
  refine ⟨d, hd, ?_, fun g hhome hg => ?_⟩
  · have hself := hvalue ⟨o.field, rfl⟩
    rw [find?_over, if_pos rfl, Option.map_some, Setting.found_onto, FieldName.value?,
      hread] at hself
    exact (Option.some.inj hself).symm
  · have hother := hvalue ⟨g, hhome⟩
    rw [find?_over, if_neg hg] at hother
    rcases value?_of_alone h hc hhome with hnone | hheld
    · rw [hnone] at hother
      exact Or.inr (Option.some.inj hother).symm
    · rw [hheld] at hother
      exact Or.inl (Option.some.inj hother).symm

/-! ## A variable over a file -/

theorem mergeEntries_settings (file : Settings) (o : Override) :
    Setting.mergeEntries file o.settings =
      Keyed.insert o.field.home.key
        (.table (o.over (find? o.field.home.key file)) .environment) file := by
  rw [Override.settings, mergeEntries_cons, table_onto]
  rfl

theorem find?_mergeEntries_settings (file : Settings) (o : Override) (t : Section) :
    find? t.key (Setting.mergeEntries file o.settings) =
      if t = o.field.home then some (.table (o.over (find? t.key file)) .environment)
      else find? t.key file := by
  rw [mergeEntries_settings, Keyed.find?_insert]
  by_cases h : t = o.field.home
  · subst h
    rw [if_pos rfl, if_pos rfl]
  · rw [if_neg h, if_neg (Section.key_injective.ne h)]

/-- If the field takes the setting of its variable, it holds that, and any other field holds what it
did or its default. -/
theorem toConfig_over {file : Settings} (h : Tabular file) {c : Config}
    (hc : Setting.toConfig file = .ok c) {o : Override} {value : Held}
    (hread : o.field.read? o.literal.found = some value) :
    ∃ d, Setting.toConfig (Setting.mergeEntries file o.settings) = .ok d ∧ d.held o.field = value ∧
      ∀ g : FieldName, g ≠ o.field → d.held g = c.held g ∨ d.held g = ({} : Config).held g := by
  have hmakes := (toConfig_eq_ok_iff h.ordered).1 hc
  obtain ⟨d, hd, hself, hothers⟩ := alone_over o (h.tableOf _) (hmakes o.field.home) hread
  refine ⟨c.withSection o.field.home d, ?_, ?_, fun g hg => ?_⟩
  · refine (toConfig_eq_ok_iff (ordered_mergeEntries h.ordered _)).2 fun t => ?_
    rw [find?_mergeEntries_settings]
    split
    · next ht =>
      subst ht
      exact makes_withSection hd c
    · next ht => exact (hmakes t).withSection ht d
  · rw [held_withSection, if_pos rfl, hself]
  · rw [held_withSection]
    split
    · next hhome =>
      have hother := hothers g hhome hg
      rwa [held_withSection, if_pos hhome] at hother
    · exact Or.inl rfl

/-! ## Loading -/

theorem tabular_ofTomlEntries {text : String} {entries : List (String × Toml.Value)}
    (hread : Toml.read? text = some entries) (source : Source) :
    Tabular (Setting.ofTomlEntries source entries) := by
  obtain ⟨hordered, hvalues⟩ := Toml.read?_ordered hread
  refine ⟨ordered_ofTomlEntries hordered source, fun key table other hs => ?_⟩
  rw [find?_ofTomlEntries] at hs
  obtain ⟨v, hv, heq⟩ := Option.map_eq_some_iff.1 hs
  cases v with
  | table fields =>
    rw [Setting.ofToml] at heq
    cases heq
    exact ordered_ofTomlEntries (hvalues key _ hv) source
  | dateTime moment =>
    rw [Setting.ofToml] at heq
    cases heq
    exact List.Pairwise.nil
  | _ =>
    rw [Setting.ofToml] at heq
    cases heq

theorem tabular_fileSettings {tree : FileTree} {directory : List String} {path : String}
    {file : Settings} (h : fileSettings tree directory path = .ok file) : Tabular file := by
  have hnil : Tabular [] := ⟨List.Pairwise.nil, fun _ _ _ hs => by cases hs⟩
  unfold fileSettings at h
  split at h
  · cases h
    exact hnil
  · split at h
    · cases h
      exact hnil
    · split at h
      · cases h
      · next hread =>
        cases h
        exact tabular_ofTomlEntries hread _

theorem ofSettings_eq_ok_iff {file environment : Settings} {c : Config} :
    ofSettings file environment = .ok c ↔
      Setting.toConfig (Setting.mergeEntries file environment) = .ok c ∧ c.check = .ok () := by
  unfold ofSettings
  cases Setting.toConfig (Setting.mergeEntries file environment) with
  | error fault => simp
  | ok d =>
    refine validate_eq_ok_iff.trans ⟨?_, ?_⟩
    · rintro ⟨rfl, hd⟩
      exact ⟨rfl, hd⟩
    · rintro ⟨hd, hc⟩
      cases hd
      exact ⟨rfl, hc⟩

/-- Without variables the file alone describes the configuration. -/
theorem load_eq_ok {tree : FileTree} {directory : List String} {path : String} {c : Config}
    (h : load tree directory [] path = .ok c) :
    ∃ file, fileSettings tree directory path = .ok file ∧ Setting.toConfig file = .ok c ∧
      c.check = .ok () := by
  cases hfile : fileSettings tree directory path with
  | error fault =>
    have hload : load tree directory [] path = .error (.config fault) := by
      rw [load, hfile]
      rfl
    rw [hload] at h
    cases h
  | ok file =>
    have hn : (([] : List Override).map Override.field).Nodup := List.nodup_nil
    have hload : load tree directory [] path = ofSettings file [] := load_eq_ofSettings hn hfile
    rw [hload] at h
    exact ⟨file, rfl, ofSettings_eq_ok_iff.1 h⟩

theorem load_override {tree : FileTree} {directory : List String} {path : String} {file : Settings}
    (hfile : fileSettings tree directory path = .ok file) (o : Override) :
    load tree directory [o.assignment] path = ofSettings file o.settings := by
  have hn : ([o].map Override.field).Nodup := List.nodup_singleton o.field
  exact load_eq_ofSettings hn hfile

end ArrayStore.Config
