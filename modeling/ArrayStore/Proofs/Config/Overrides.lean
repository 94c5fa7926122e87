import ArrayStore.Proofs.Config.Names
import ArrayStore.Proofs.Config.Merging

/-!
# Variables over each other

* `Override` : a variable that sets a field, with the setting that its text is read as;
* `literalOf?` : the setting of a field, by at most one variable for each;
* `layered` : the settings of variables, each over the ones before; `settings_assignments` : that is
  what the environment gives;
* `at?_layered` : the settings stand at the fields that the variables name, and nowhere else;
* `layered_perm` : so their order does not matter.
-/

namespace ArrayStore.Config
open Keyed (Ordered find?)

/-- A variable that sets a field: its name is that of the field, in any case, and its text is read
as a setting. No text is refused but one that is cut inside a character while it is read. -/
structure Override where
  field : FieldName
  name : String
  text : String
  literal : Setting
  spells : name.toList.map Char.toUpper = field.variable.toList
  reads : Variable.settingOf text = .ok literal

namespace Override

def assignment (o : Override) : String × String := (o.name, o.text)

/-- The settings with the one at the field. -/
def settings (o : Override) : Settings :=
  [(o.field.home.key, .table [(o.field.key, o.literal)] .environment)]

end Override

/-- The setting that a variable has for a field. -/
def literalOf? (overrides : List Override) (f : FieldName) : Option Setting :=
  (overrides.map fun o => (o.field, o.literal)).lookup f

/-- The settings of the variables, each over the ones before. -/
def layered (overrides : List Override) : Settings :=
  overrides.foldl (fun settings o => Setting.mergeEntries settings o.settings) []

theorem layered_concat (overrides : List Override) (o : Override) :
    layered (overrides ++ [o]) = Setting.mergeEntries (layered overrides) o.settings :=
  List.foldl_append

/-! ## The environment -/

theorem environment_of_nodup {assignments : List (String × String)}
    (hn : (assignments.map Prod.fst).Nodup) : Variable.environment assignments = assignments := by
  induction assignments using List.reverseRecOn with
  | nil => rfl
  | append_singleton assignments assignment ih =>
    rw [List.map_append, List.nodup_append] at hn
    have hnew : assignments.any (fun other => other.1 == assignment.1) = false := by
      refine List.any_eq_false.2 fun other hother heq => ?_
      exact hn.2.2 other.1 (List.mem_map_of_mem hother) _ (List.mem_singleton_self _)
        (beq_iff_eq.1 heq)
    have hlast : Variable.environment (assignments ++ [assignment]) =
        if (Variable.environment assignments).any (fun other => other.1 == assignment.1) then
          (Variable.environment assignments).map fun other =>
            (other.1, if other.1 == assignment.1 then assignment.2 else other.2)
        else Variable.environment assignments ++ [assignment] := List.foldl_append
    rw [hlast, ih hn.1, hnew]
    rfl

theorem FieldName.variable_injective : Function.Injective FieldName.variable := by
  intro f g h
  cases f <;> cases g <;> first | rfl | exact absurd h (by decide)

theorem Override.field_eq_of_name_eq {o p : Override} (h : o.name = p.name) :
    o.field = p.field := by
  refine FieldName.variable_injective (String.toList_injective ?_)
  rw [← o.spells, ← p.spells, h]

theorem nodup_assignments {overrides : List Override} (hn : (overrides.map Override.field).Nodup) :
    ((overrides.map Override.assignment).map Prod.fst).Nodup := by
  rw [List.map_map]
  refine List.pairwise_map.2 ((List.pairwise_map.1 hn).imp fun hne h => hne ?_)
  exact Override.field_eq_of_name_eq h

/-- The variables give the settings of each over the ones before. -/
theorem settings_assignments {overrides : List Override}
    (hn : (overrides.map Override.field).Nodup) :
    Variable.settings (overrides.map Override.assignment) = .ok (layered overrides) := by
  unfold Variable.settings layered
  rw [environment_of_nodup (nodup_assignments hn), List.foldlM_map]
  clear hn
  generalize ([] : Settings) = start
  induction overrides generalizing start with
  | nil => rfl
  | cons o overrides ih =>
    rw [List.foldlM_cons, List.foldl_cons, ← ih]
    simp only [Override.assignment, keys?_of_variable o.spells, o.reads]
    rfl

/-! ## What stands where -/

/-- Every key has an ordered table of the environment that is not empty. -/
structure FromVariables (settings : Settings) : Prop where
  ordered : Ordered settings
  tables : ∀ key, ∀ s ∈ find? key settings,
    s.IsTable ∧ s.source = .environment ∧ ∃ field, (s.child? field).isSome = true

theorem FromVariables.isTable {settings : Settings} (h : FromVariables settings) (key : String) :
    ∀ s ∈ find? key settings, s.IsTable :=
  fun s hs => (h.tables key s hs).1

theorem FromVariables.sectioned {settings : Settings} (h : FromVariables settings) :
    Sectioned settings :=
  ⟨h.ordered, fun t => h.isTable t.key⟩

theorem find?_settings (o : Override) (key : String) :
    find? key o.settings = if key = o.field.home.key then
      some (.table [(o.field.key, o.literal)] .environment) else none :=
  Keyed.find?_cons key _ []

theorem at?_settings (o : Override) (table key : String) :
    at? table key o.settings =
      if table = o.field.home.key ∧ key = o.field.key then some o.literal else none := by
  unfold at?
  rw [find?_settings]
  by_cases h : table = o.field.home.key
  · rw [if_pos h, Option.bind_some]
    exact (Keyed.find?_cons key _ []).trans (by simp [h, find?])
  · rw [if_neg h, if_neg fun hk => h hk.1]
    rfl

theorem fromVariables_settings (o : Override) : FromVariables o.settings := by
  refine ⟨List.pairwise_singleton .., fun key s hs => ?_⟩
  rw [find?_settings] at hs
  obtain ⟨-, hs⟩ := Option.ite_none_right_eq_some.1 hs
  cases hs
  refine ⟨⟨_, _, rfl, List.pairwise_singleton ..⟩, rfl, o.field.key, ?_⟩
  exact Option.isSome_iff_exists.2 ⟨o.literal, (Keyed.find?_cons ..).trans (if_pos rfl)⟩

theorem FromVariables.mergeEntries {earlier later : Settings} (he : FromVariables earlier)
    (hl : FromVariables later) : FromVariables (Setting.mergeEntries earlier later) := by
  refine ⟨ordered_mergeEntries he.ordered later, fun key s hs => ?_⟩
  rw [find?_mergeEntries hl.ordered.nodup] at hs
  cases hlater : find? key later with
  | none =>
    rw [hlater] at hs
    exact he.tables key s hs
  | some new =>
    rw [hlater] at hs
    cases hs
    obtain ⟨hnew, hsource, field, hfield⟩ := hl.tables key new hlater
    refine ⟨isTable_overlay (he.isTable key) (hl.isTable key) _ (by rw [hlater]; rfl),
      (new.source_onto _).trans hsource, field, ?_⟩
    obtain ⟨v, hv⟩ := Option.isSome_iff_exists.1 hfield
    have hentry := child?_overlay (he.isTable key) (hl.isTable key) field
    rw [hlater, Option.bind_some, hv] at hentry
    exact Option.isSome_iff_exists.2 ⟨_, hentry⟩

theorem fromVariables_layered (overrides : List Override) : FromVariables (layered overrides) := by
  induction overrides using List.reverseRecOn with
  | nil => exact ⟨List.Pairwise.nil, fun _ _ hs => by cases hs⟩
  | append_singleton overrides o ih =>
    rw [layered_concat]
    exact ih.mergeEntries (fromVariables_settings o)

/-- The settings stand at the fields that the variables name, and nowhere else. -/
theorem at?_layered {overrides : List Override} (hn : (overrides.map Override.field).Nodup)
    (table key : String) (s : Setting) :
    at? table key (layered overrides) = some s ↔
      ∃ o ∈ overrides, table = o.field.home.key ∧ key = o.field.key ∧ o.literal = s := by
  induction overrides using List.reverseRecOn generalizing s with
  | nil => simp [layered, at?, find?]
  | append_singleton overrides o ih =>
    rw [List.map_append, List.nodup_append] at hn
    have hnew {p : Override} (hp : p ∈ overrides) : p.field ≠ o.field :=
      hn.2.2 _ (List.mem_map_of_mem hp) _ (List.mem_singleton_self _)
    have hbefore := (fromVariables_layered overrides).isTable table
    have hafter := (fromVariables_settings o).isTable table
    rw [layered_concat, at?_mergeEntries (fromVariables_settings o).ordered.nodup hbefore hafter,
      at?_settings]
    by_cases h : table = o.field.home.key ∧ key = o.field.key
    · obtain ⟨rfl, rfl⟩ := h
      have hnone : at? o.field.home.key o.field.key (layered overrides) = none := by
        refine Option.eq_none_iff_forall_ne_some.2 fun t ht => ?_
        obtain ⟨p, hp, -, hkey, -⟩ := (ih hn.1 t).1 ht
        exact hnew hp (FieldName.key_injective hkey).symm
      rw [if_pos ⟨rfl, rfl⟩, hnone, none_overlay]
      constructor
      · intro hs
        exact ⟨o, List.mem_append_right _ (List.mem_singleton_self _), rfl, rfl, Option.some.inj hs⟩
      · rintro ⟨p, hp, -, hkey, rfl⟩
        rcases List.mem_append.1 hp with hp | hp
        · exact absurd (FieldName.key_injective hkey).symm (hnew hp)
        · rw [List.mem_singleton.1 hp]
    · rw [if_neg h]
      refine (ih hn.1 s).trans ⟨?_, ?_⟩
      · rintro ⟨p, hp, hrest⟩
        exact ⟨p, List.mem_append_left _ hp, hrest⟩
      · rintro ⟨p, hp, htable, hkey, hs⟩
        rcases List.mem_append.1 hp with hp | hp
        · exact ⟨p, hp, htable, hkey, hs⟩
        · cases List.mem_singleton.1 hp
          exact absurd ⟨htable, hkey⟩ h

theorem foundAt_layered {overrides : List Override} (hn : (overrides.map Override.field).Nodup)
    (f : FieldName) :
    foundAt (layered overrides) f = (literalOf? overrides f).map Setting.found := by
  have hkeys : ((overrides.map fun o => (o.field, o.literal)).map Prod.fst).Nodup := by
    rw [List.map_map]
    exact hn
  refine congrArg (Option.map Setting.found) (Option.ext fun s => ?_)
  rw [at?_layered hn, literalOf?, Keyed.lookup_eq_some_iff_of_nodup hkeys, List.mem_map]
  constructor
  · rintro ⟨o, ho, -, hkey, rfl⟩
    exact ⟨o, ho, by rw [FieldName.key_injective hkey]⟩
  · rintro ⟨o, ho, heq⟩
    cases heq
    exact ⟨o, ho, rfl, rfl, rfl⟩

/-! ## Order -/

/-- Settings of variables are known by what stands where. -/
theorem FromVariables.ext {a b : Settings} (ha : FromVariables a) (hb : FromVariables b)
    (h : ∀ table key, at? table key a = at? table key b) : a = b := by
  -- a table of one has a key, and what stands there stands in the other, too
  have hsome {x y : Settings} (hx : FromVariables x)
      (hxy : ∀ table key, at? table key x = at? table key y) {table : String} {s : Setting}
      (hs : find? table x = some s) : ∃ t, find? table y = some t := by
    obtain ⟨-, -, field, hfield⟩ := hx.tables table s hs
    obtain ⟨v, hv⟩ := Option.isSome_iff_exists.1 hfield
    have hat : at? table field y = some v := by
      rw [← hxy, at?, hs, Option.bind_some, hv]
    obtain ⟨t, ht, -⟩ := Option.bind_eq_some_iff.1 hat
    exact ⟨t, ht⟩
  refine ha.ordered.ext hb.ordered fun table => ?_
  cases hfa : find? table a with
  | none =>
    cases hfb : find? table b with
    | none => rfl
    | some t =>
      obtain ⟨s, hs⟩ := hsome hb (fun table key => (h table key).symm) hfb
      rw [hfa] at hs
      cases hs
  | some s =>
    obtain ⟨t, ht⟩ := hsome ha h hfa
    obtain ⟨hstable, hssource, -⟩ := ha.tables table s hfa
    obtain ⟨httable, htsource, -⟩ := hb.tables table t ht
    have hentry (key : String) : s.child? key = t.child? key := by
      have hat := h table key
      rwa [at?, at?, hfa, ht] at hat
    rw [ht, hstable.ext httable (hssource.trans htsource.symm) hentry]

theorem layered_perm {overrides others : List Override} (hp : overrides.Perm others)
    (hn : (overrides.map Override.field).Nodup) : layered overrides = layered others := by
  refine (fromVariables_layered overrides).ext (fromVariables_layered others) fun table key =>
    Option.ext fun s => ?_
  rw [at?_layered hn, at?_layered ((hp.map _).nodup_iff.1 hn)]
  exact exists_congr fun o => and_congr_left fun _ => hp.mem_iff

end ArrayStore.Config
