import ArrayStore.Proofs.Config.Reading

/-!
# Sections apart

* `withSection` : a configuration with a section of another;
* `alone` : the configuration that the setting of a section makes by itself;
* `toConfig_eq_ok_iff` : settings describe a configuration just if each section by itself makes its
  part of it; `toConfig_fault` : else the fault of a section whose other one is right is the fault
  of both;
* `Tabular` : settings in the order of their keys, and so are the tables in them;
* `tableOf` : the entries of a section, none if it is a list; `value?_of_alone` : a field holds what
  stands there, if anything does.
-/

namespace ArrayStore.Config
open Keyed (Ordered find?)

/-! ## One section and the others -/

/-- The configuration with a section of another. -/
def withSection (c : Config) (t : Section) (d : Config) : Config :=
  match t with
  | .application => { c with application := d.application }
  | .storage => { c with storage := d.storage }

theorem held_withSection (c d : Config) (t : Section) (f : FieldName) :
    (c.withSection t d).held f = if f.home = t then d.held f else c.held f := by
  cases t <;> cases f <;> rfl

/-- The configuration that the setting of a section makes by itself, the default if there is
none. -/
def alone (t : Section) : Option Setting → Except Fault Config
  | none => .ok {}
  | some s => Setting.setSection {} t.key s

/-- Setting a section puts what its setting makes by itself. -/
theorem setSection_eq (t : Section) (s : Setting) (c : Config) :
    Setting.setSection c t.key s = (alone t (some s)).map (c.withSection t) := by
  unfold alone Setting.setSection
  cases t with
  | application =>
    dsimp only [Section.key]
    cases s.fields ["log_level"] .applicationTable ["application"] with
    | error fault => rfl
    | ok fields =>
      simp only [bind, Except.bind]
      cases fields.foldlM Setting.setApplication {} <;> rfl
  | storage =>
    dsimp only [Section.key]
    cases s.fields ["base_location", "file_extension", "chunk_rows", "compression_level"]
      .storageTable ["storage"] with
    | error fault => rfl
    | ok fields =>
      simp only [bind, Except.bind]
      cases fields.foldlM Setting.setStorage {} <;> rfl

/-- A section by itself makes nothing of another. -/
theorem eq_of_alone {t : Section} {s? : Option Setting} {d : Config} (h : alone t s? = .ok d) :
    ({} : Config).withSection t d = d := by
  cases s? with
  | none =>
    cases h
    cases t <;> rfl
  | some s =>
    have heq := setSection_eq t s {}
    rw [show Setting.setSection {} t.key s = .ok d from h, h] at heq
    exact (Except.ok.inj heq).symm

/-- The setting of a section makes no configuration. -/
def Fails (t : Section) (s : Setting) : Prop := ∃ fault, alone t (some s) = .error fault

/-- The section of the configuration is what its setting makes by itself. -/
def Makes (t : Section) (s? : Option Setting) (c : Config) : Prop :=
  alone t s? = .ok (({} : Config).withSection t c)

theorem makes_withSection {t : Section} {s? : Option Setting} {d : Config}
    (h : alone t s? = .ok d) (c : Config) : Makes t s? (c.withSection t d) := by
  have hself : ({} : Config).withSection t (c.withSection t d) = d := by
    refine Eq.trans ?_ (eq_of_alone h)
    cases t <;> rfl
  rw [Makes, hself]
  exact h

theorem Makes.withSection {t j : Section} {s? : Option Setting} {c : Config} (h : Makes j s? c)
    (hj : j ≠ t) (d : Config) : Makes j s? (c.withSection t d) := by
  have hother : ({} : Config).withSection j (c.withSection t d) =
      ({} : Config).withSection j c := by
    cases t <;> cases j <;> first | rfl | exact absurd rfl hj
  rw [Makes, hother]
  exact h

theorem readsEntry_alone (entry : String × Setting) :
    ReadsEntry (fun c e => Setting.setSection c e.1 e.2) Section.key Fails Makes entry := by
  obtain ⟨k, s⟩ := entry
  refine ⟨?_, ?_, fun hk c => setSection_other hk s c⟩
  · rintro t rfl hgood c
    cases hs : alone t (some s) with
    | error fault => exact absurd ⟨fault, hs⟩ hgood
    | ok d =>
      refine ⟨c.withSection t d, by rw [setSection_eq, hs]; rfl, makes_withSection hs c, ?_⟩
      exact fun j hj s? hc => hc.withSection hj d
  · rintro t rfl ⟨fault, hs⟩ c
    exact ⟨fault, by rw [setSection_eq, hs]; rfl⟩

theorem eq_of_makes {part? : Section → Option Setting} {c d : Config}
    (hc : ∀ t, Makes t (part? t) c) (hd : ∀ t, Makes t (part? t) d) : c = d := by
  refine ext_held fun f => ?_
  have h := congrArg (Config.held · f) (Except.ok.inj ((hc f.home).symm.trans (hd f.home)))
  simpa only [held_withSection, if_true] using h

/-- Settings describe a configuration just if each section by itself makes its part of it. -/
theorem toConfig_eq_ok_iff {settings : Settings} (h : Ordered settings) {c : Config} :
    Setting.toConfig settings = .ok c ↔ ∀ t : Section, Makes t (find? t.key settings) c := by
  have hreads := fun entry (_ : entry ∈ settings) => readsEntry_alone entry
  have hrun (hgood : ∀ t s, (Section.key t, s) ∈ settings → ¬Fails t s) :
      ∃ d, Setting.toConfig settings = .ok d ∧ ∀ t : Section, Makes t (find? t.key settings) d :=
    ReadsEntry.run_good Section.key_injective h.nodup hreads hgood fun t => by cases t <;> rfl
  constructor
  · intro hc
    obtain ⟨d, hd, hmakes⟩ := hrun fun t s hm hfails => by
      obtain ⟨fault, hfault⟩ := ReadsEntry.run_bad hreads hm hfails {}
      exact absurd (hc.symm.trans hfault) (by simp)
    rwa [Except.ok.inj (hc.symm.trans hd)]
  · intro hc
    obtain ⟨d, hd, hmakes⟩ := hrun fun t s hm ⟨fault, hfault⟩ => by
      have hok := hc t
      rw [Makes, h.find?_eq_some_iff.2 hm, hfault] at hok
      cases hok
    rwa [eq_of_makes hc hmakes]

/-- The fault of one section, where the other is right, is the fault of both. -/
theorem toConfig_fault {settings : Settings} (h : Ordered settings) {t : Section} {s : Setting}
    {fault : Fault} (hs : find? t.key settings = some s) (hfault : alone t (some s) = .error fault)
    (hgood : ∀ j : Section, j ≠ t → ∃ d, alone j (find? j.key settings) = .ok d) :
    Setting.toConfig settings = .error fault := by
  refine ReadsEntry.run_fault h.nodup (fun entry _ => readsEntry_alone entry)
    (h.find?_eq_some_iff.1 hs) (fun c => by rw [setSection_eq, hfault]; rfl) ?_ {}
  rintro j w hj hw ⟨other, hother⟩
  obtain ⟨d, hd⟩ := hgood j hj
  rw [h.find?_eq_some_iff.2 hw, hother] at hd
  cases hd

/-! ## The tables of sections -/

/-- The settings are in the order of their keys, and so are the tables in them. -/
structure Tabular (settings : Settings) : Prop where
  ordered : Ordered settings
  tables : ∀ key entries source, find? key settings = some (.table entries source) →
    Ordered entries

/-- The entries of a table, none of anything else. -/
def tableOf : Option Setting → Settings
  | some (.table entries _) => entries
  | _ => []

theorem Tabular.tableOf {settings : Settings} (h : Tabular settings) (key : String) :
    Ordered (tableOf (find? key settings)) := by
  unfold Config.tableOf
  split
  · next entries source hs => exact h.tables key entries source hs
  · exact List.Pairwise.nil

/-- A section has nothing at the key of a field, or the field holds what stands there. -/
theorem value?_of_alone {t : Section} {s? : Option Setting} (h : Ordered (tableOf s?)) {c : Config}
    (hc : alone t s? = .ok c) {f : FieldName} (hf : f.home = t) :
    find? f.key (tableOf s?) = none ∨
      f.value? ((find? f.key (tableOf s?)).map Setting.found) = some (c.held f) := by
  unfold tableOf at h ⊢
  split
  · next entries source =>
    have hsets := setsSection_setSection t h source {}
    have hreads (g : FieldOf t) (s : Setting) (hs : find? g.1.key entries = some s) :
        g.1.read? s.found ≠ none := by
      intro hbad
      obtain ⟨fault, hfault⟩ := hsets.bad g s hs hbad
      exact absurd (hc.symm.trans hfault) (by simp)
    obtain ⟨d, hd, hvalue, -⟩ := hsets.good hreads
    rw [Except.ok.inj (hc.symm.trans hd)]
    exact Or.inr (hvalue ⟨f, hf⟩)
  · exact Or.inl rfl

end ArrayStore.Config
