import ArrayStore.Proofs.Config.Fields
import ArrayStore.Proofs.Keyed

/-!
# Settings over settings

* `Setting.onto`, `overlay` : what stands at a key after merging, by what stood there before;
* `find?_mergeEntries`, `ordered_mergeEntries` : merging goes key by key and keeps the order;
* `Setting.IsTable` : a table, ordered by key;
* `at?` : the setting at a key of a table of settings; `at?_mergeEntries` : merging goes key by key
  there, too, wherever both settings have a table;
* `Setting.found_onto` : what faults say of the later setting, they say of the merged one;
* `Sectioned` : settings whose sections are tables; `foundAt_mergeEntries` : in each of their fields
  the later setting stands, if there is one.
-/

namespace ArrayStore.Config
open Keyed (Ordered find?)

/-! ## Merging at a key -/

/-- The later setting over the earlier one, if there is one. -/
def Setting.onto (later : Setting) : Option Setting → Setting
  | some old => old.merge later
  | none => later

/-- What stands at a key after later settings were put over earlier ones. -/
def overlay (earlier : Option Setting) : Option Setting → Option Setting
  | none => earlier
  | some later => some (later.onto earlier)

theorem none_overlay (later : Option Setting) : overlay none later = later := by cases later <;> rfl

theorem mergeEntries_cons (earlier : Settings) (key : String) (later : Setting)
    (entries : Settings) :
    Setting.mergeEntries earlier ((key, later) :: entries) =
      Setting.mergeEntries (Keyed.insert key (later.onto (find? key earlier)) earlier) entries := by
  rw [Setting.mergeEntries]
  cases find? key earlier <;> rfl

theorem find?_mergeEntries {later : Settings} (hn : (later.map Prod.fst).Nodup) (earlier : Settings)
    (key : String) :
    find? key (Setting.mergeEntries earlier later) =
      overlay (find? key earlier) (find? key later) := by
  induction later generalizing earlier with
  | nil => rfl
  | cons entry later ih =>
    obtain ⟨other, s⟩ := entry
    obtain ⟨hother, hn⟩ := List.nodup_cons.1 hn
    rw [mergeEntries_cons, ih hn, Keyed.find?_insert, Keyed.find?_cons]
    by_cases h : key = other
    · subst h
      rw [if_pos rfl, if_pos rfl, Keyed.find?_eq_none_of_not_mem hother]
      rfl
    · rw [if_neg h, if_neg h]

theorem ordered_mergeEntries {earlier : Settings} (h : Ordered earlier) (later : Settings) :
    Ordered (Setting.mergeEntries earlier later) := by
  induction later generalizing earlier with
  | nil => exact h
  | cons entry later ih =>
    rw [mergeEntries_cons]
    exact ih (h.insert _ _)

/-! ## Tables of settings -/

namespace Setting

/-- A table, ordered by key. -/
def IsTable (s : Setting) : Prop := ∃ entries source, s = .table entries source ∧ Ordered entries

/-- The setting at a key of a table. -/
def child? (key : String) : Setting → Option Setting
  | .table entries _ => find? key entries
  | _ => none

theorem IsTable.ext {s t : Setting} (hs : s.IsTable) (ht : t.IsTable)
    (hsource : s.source = t.source) (hentry : ∀ key, s.child? key = t.child? key) : s = t := by
  obtain ⟨entries, source, rfl, he⟩ := hs
  obtain ⟨others, other, rfl, ho⟩ := ht
  rw [he.ext ho hentry, show source = other from hsource]

theorem IsTable.merge {old later : Setting} (ho : old.IsTable) (hl : later.IsTable) :
    (old.merge later).IsTable ∧
      ∀ key, (old.merge later).child? key = overlay (old.child? key) (later.child? key) := by
  obtain ⟨entries, source, rfl, he⟩ := ho
  obtain ⟨others, other, rfl, ho⟩ := hl
  exact ⟨⟨_, other, rfl, ordered_mergeEntries he others⟩, find?_mergeEntries ho.nodup entries⟩

theorem source_onto (later : Setting) (earlier : Option Setting) :
    (later.onto earlier).source = later.source := by
  cases earlier with
  | none => rfl
  | some old => cases later <;> cases old <;> rfl

theorem found_onto (later : Setting) (earlier : Option Setting) :
    (later.onto earlier).found = later.found := by
  cases earlier with
  | none => rfl
  | some old => cases later <;> cases old <;> rfl

end Setting

/-- The setting at a key of a table of the settings. -/
def at? (table key : String) (settings : Settings) : Option Setting :=
  (find? table settings).bind (Setting.child? key)

/-- Both settings, if they have the table at all, have an ordered one there. -/
theorem isTable_overlay {a b : Option Setting} (ha : ∀ s ∈ a, s.IsTable) (hb : ∀ s ∈ b, s.IsTable) :
    ∀ s ∈ overlay a b, s.IsTable := by
  cases b with
  | none => exact ha
  | some later =>
    cases a with
    | none => exact hb
    | some old =>
      intro s hs
      cases hs
      exact ((ha old rfl).merge (hb later rfl)).1

theorem child?_overlay {a b : Option Setting} (ha : ∀ s ∈ a, s.IsTable) (hb : ∀ s ∈ b, s.IsTable)
    (key : String) :
    (overlay a b).bind (Setting.child? key) =
      overlay (a.bind (Setting.child? key)) (b.bind (Setting.child? key)) := by
  cases b with
  | none => rfl
  | some later =>
    cases a with
    | none => exact (none_overlay _).symm
    | some old => exact ((ha old rfl).merge (hb later rfl)).2 key

theorem at?_mergeEntries {earlier later : Settings} {table : String}
    (hn : (later.map Prod.fst).Nodup) (he : ∀ s ∈ find? table earlier, s.IsTable)
    (hl : ∀ s ∈ find? table later, s.IsTable) (key : String) :
    at? table key (Setting.mergeEntries earlier later) =
      overlay (at? table key earlier) (at? table key later) := by
  unfold at?
  rw [find?_mergeEntries hn]
  exact child?_overlay he hl key

/-! ## Settings of sections -/

/-- The settings are ordered by key, and so is the table of each section that they have. -/
structure Sectioned (settings : Settings) : Prop where
  ordered : Ordered settings
  isTable : ∀ t : Section, ∀ s ∈ find? t.key settings, s.IsTable

/-- What stands at the key of a field. -/
def foundAt (settings : Settings) (f : FieldName) : Option Found :=
  (at? f.home.key f.key settings).map Setting.found

theorem Sectioned.mergeEntries {earlier later : Settings} (he : Sectioned earlier)
    (hl : Sectioned later) : Sectioned (Setting.mergeEntries earlier later) := by
  refine ⟨ordered_mergeEntries he.ordered later, fun t => ?_⟩
  rw [find?_mergeEntries hl.ordered.nodup]
  exact isTable_overlay (he.isTable t) (hl.isTable t)

/-- The later setting of a field stands, if there is one. Two tables are merged into another, which
no field can tell from the later one. -/
theorem foundAt_mergeEntries {earlier later : Settings} (he : Sectioned earlier)
    (hl : Sectioned later) (f : FieldName) :
    foundAt (Setting.mergeEntries earlier later) f = (foundAt later f).or (foundAt earlier f) := by
  unfold foundAt
  rw [at?_mergeEntries hl.ordered.nodup (he.isTable f.home) (hl.isTable f.home)]
  cases at? f.home.key f.key later with
  | none => rfl
  | some s => exact congrArg some (s.found_onto _)

end ArrayStore.Config
