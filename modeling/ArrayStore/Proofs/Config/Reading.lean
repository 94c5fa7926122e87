import ArrayStore.Proofs.Config.Fields
import ArrayStore.Proofs.Config.Merging

/-!
# Reading a configuration

* `ReadsEntry` : a step of a reader takes one part from the entry at its key; `ReadsEntry.run_good`,
  `ReadsEntry.run_bad` : a run over a list with distinct keys takes every part by look-up, in
  whatever order the entries stand; `ReadsEntry.run_fault` : the fault of the only bad part is that
  of the run;
* `SetsSection` : setting a section reads its fields so; `setsSection_setSection` : both do;
* `toConfig_good`, `toConfig_bad` : a configuration is read field by field, and fails just if a
  field takes nothing from what stands at its key.
-/

namespace ArrayStore.Config
open Keyed (Ordered find?)

/-! ## Reading by key -/

/-- A step of a reader at an entry: it takes the part whose key the entry has, or fails on what
stands there; it passes over an entry with the key of no part. -/
structure ReadsEntry {ε α σ ι : Type} (step : σ → String × α → Except ε σ) (key : ι → String)
    (Bad : ι → α → Prop) (Has : ι → Option α → σ → Prop) (entry : String × α) : Prop where
  good : ∀ i, entry.1 = key i → ¬Bad i entry.2 → ∀ c, ∃ d, step c entry = .ok d ∧
    Has i (some entry.2) d ∧ ∀ j, j ≠ i → ∀ v?, Has j v? c → Has j v? d
  bad : ∀ i, entry.1 = key i → Bad i entry.2 → ∀ c, ∃ e, step c entry = .error e
  other : (∀ i, entry.1 ≠ key i) → ∀ c, step c entry = .ok c

section Run
variable {ε α σ ι : Type} {step : σ → String × α → Except ε σ} {key : ι → String}
  {Bad : ι → α → Prop} {Has : ι → Option α → σ → Prop} {entries : List (String × α)}

/-- If no part is bad, the run takes each from the entry at its key. -/
theorem ReadsEntry.run_good (hkey : Function.Injective key) (hn : (entries.map Prod.fst).Nodup)
    (hr : ∀ entry ∈ entries, ReadsEntry step key Bad Has entry)
    (hgood : ∀ i v, (key i, v) ∈ entries → ¬Bad i v) {c : σ} (hc : ∀ i, Has i none c) :
    ∃ d, entries.foldlM step c = .ok d ∧ ∀ i, Has i (find? (key i) entries) d := by
  induction entries using List.reverseRecOn with
  | nil => exact ⟨c, rfl, hc⟩
  | append_singleton entries entry ih =>
    obtain ⟨k, v⟩ := entry
    rw [List.map_append, List.nodup_append] at hn
    obtain ⟨m, hm, hhas⟩ := ih hn.1 (fun entry he => hr entry (List.mem_append_left _ he))
      (fun i v he => hgood i v (List.mem_append_left _ he))
    have hlast : (k, v) ∈ entries ++ [(k, v)] := List.mem_append_right _ (List.mem_singleton_self _)
    have hrun : (entries ++ [(k, v)]).foldlM step c = step m (k, v) := by
      rw [List.foldlM_append, hm]
      exact bind_pure (step m (k, v))
    rw [hrun]
    -- no entry before has the key of the last one, so that its part had its default up to here
    by_cases hk : ∃ i, k = key i
    · obtain ⟨i, rfl⟩ := hk
      obtain ⟨d, hd, hi, hj⟩ := (hr _ hlast).good i rfl (hgood i v hlast) m
      refine ⟨d, hd, fun j => ?_⟩
      rw [Keyed.find?_concat]
      by_cases h : j = i
      · subst h
        have hnew : key j ∉ entries.map Prod.fst := fun hmem =>
          hn.2.2 _ hmem _ (List.mem_singleton_self _) rfl
        rw [Keyed.find?_eq_none_of_not_mem hnew, if_pos rfl]
        exact hi
      · rw [if_neg (hkey.ne h), Option.or_none]
        exact hj j h _ (hhas j)
    · have hk : ∀ i, k ≠ key i := fun i hi => hk ⟨i, hi⟩
      refine ⟨m, (hr _ hlast).other hk m, fun j => ?_⟩
      rw [Keyed.find?_concat, if_neg (hk j).symm, Option.or_none]
      exact hhas j

/-- If a part is bad, the run fails. -/
theorem ReadsEntry.run_bad (hr : ∀ entry ∈ entries, ReadsEntry step key Bad Has entry) {i : ι}
    {v : α} (hm : (key i, v) ∈ entries) (hbad : Bad i v) (c : σ) :
    ∃ e, entries.foldlM step c = .error e := by
  induction entries generalizing c with
  | nil => cases hm
  | cons entry entries ih =>
    obtain ⟨hentry, hr⟩ := List.forall_mem_cons.1 hr
    rw [List.foldlM_cons]
    cases hs : step c entry with
    | error e => exact ⟨e, rfl⟩
    | ok d =>
      rcases List.mem_cons.1 hm with rfl | hm
      · obtain ⟨e, he⟩ := hentry.bad i rfl hbad c
        rw [hs] at he
        cases he
      · exact ih hr hm d

/-- If the entry of one part fails in every state and no other part is bad, the run fails so. -/
theorem ReadsEntry.run_fault (hn : (entries.map Prod.fst).Nodup)
    (hr : ∀ entry ∈ entries, ReadsEntry step key Bad Has entry) {i : ι} {v : α} {e : ε}
    (hm : (key i, v) ∈ entries) (hfault : ∀ c, step c (key i, v) = .error e)
    (hgood : ∀ j w, j ≠ i → (key j, w) ∈ entries → ¬Bad j w) (c : σ) :
    entries.foldlM step c = .error e := by
  induction entries generalizing c with
  | nil => cases hm
  | cons entry entries ih =>
    obtain ⟨hentry, hr⟩ := List.forall_mem_cons.1 hr
    obtain ⟨hnew, hn⟩ := List.nodup_cons.1 hn
    rw [List.foldlM_cons]
    rcases List.mem_cons.1 hm with rfl | hm
    · rw [hfault]
      rfl
    · -- the first entry is of another part, or of none, and passes
      have hpass : ∃ d, step c entry = .ok d := by
        by_cases hk : ∃ j, entry.1 = key j
        · obtain ⟨j, hj⟩ := hk
          have hne : j ≠ i := by
            rintro rfl
            exact hnew (hj ▸ List.mem_map_of_mem hm)
          have hbad := hgood j entry.2 hne (hj ▸ List.mem_cons_self)
          obtain ⟨d, hd, -⟩ := hentry.good j hj hbad c
          exact ⟨d, hd⟩
        · exact ⟨c, hentry.other (fun j hj => hk ⟨j, hj⟩) c⟩
      obtain ⟨d, hd⟩ := hpass
      rw [hd]
      exact ih hn hr hm (fun j w hj hw => hgood j w hj (List.mem_cons_of_mem _ hw)) d

end Run

/-! ## Sections -/

/-- A field of a section. -/
abbrev FieldOf (t : Section) := {f : FieldName // f.home = t}

theorem FieldOf.key_injective (t : Section) : Function.Injective fun i : FieldOf t => i.1.key :=
  FieldName.key_injective.comp Subtype.val_injective

/-- A step of the reader of a section, at a key and what stands there. -/
def fieldStep {σ : Type} (set : σ → Setting.Field → Except Fault σ) (c : σ)
    (entry : String × Setting) : Except Fault σ :=
  set c ⟨entry.1, entry.1, entry.2⟩

theorem readsEntry_of_sets {σ : Type} {held : σ → FieldName → Held} {t : Section}
    {set : σ → Setting.Field → Except Fault σ}
    (hsets : ∀ f : FieldName, f.home = t → ∀ s c, Sets held f s c (set c ⟨f.key, f.key, s⟩))
    (hother : ∀ g c, (∀ f : FieldName, f.home = t → g.name ≠ f.key) → set c g = .ok c)
    (entry : String × Setting) :
    ReadsEntry (fieldStep set) (fun i : FieldOf t => i.1.key) (fun i s => i.1.read? s.found = none)
      (fun i s? c => i.1.value? (s?.map Setting.found) = some (held c i.1)) entry := by
  obtain ⟨k, s⟩ := entry
  refine ⟨?_, ?_, ?_⟩
  · rintro i rfl hgood c
    obtain ⟨value, hvalue⟩ := Option.ne_none_iff_exists'.1 hgood
    obtain ⟨d, hd, hheld⟩ := (hsets i.1 i.2 s c).good value hvalue
    refine ⟨d, hd, ?_, fun j hj s? h => ?_⟩
    · rw [hheld, if_pos rfl]
      exact hvalue
    · rw [hheld, if_neg (Subtype.val_injective.ne hj)]
      exact h
  · rintro i rfl hbad c
    exact (hsets i.1 i.2 s c).bad hbad
  · exact fun h c => hother ⟨k, k, s⟩ c fun f hf => h ⟨f, hf⟩

theorem foldlM_fields {σ : Type} (set : σ → Setting.Field → Except Fault σ) (c : σ)
    (entries : Settings) :
    (entries.map fun entry => (⟨entry.1, entry.1, entry.2⟩ : Setting.Field)).foldlM set c =
      entries.foldlM (fieldStep set) c :=
  List.foldlM_map

theorem setSection_application (c : Config) (entries : Settings) (source : Source) :
    Setting.setSection c Section.application.key (.table entries source) =
      (entries.foldlM (fieldStep Setting.setApplication) {}).map
        fun a => { c with application := a } := by
  rw [← foldlM_fields]
  rfl

theorem setSection_storage (c : Config) (entries : Settings) (source : Source) :
    Setting.setSection c Section.storage.key (.table entries source) =
      (entries.foldlM (fieldStep Setting.setStorage) {}).map
        fun s => { c with storage := s } := by
  rw [← foldlM_fields]
  rfl

/-- Setting a section reads its fields and changes none of another, or fails if one of them takes
nothing. -/
structure SetsSection (t : Section) (entries : Settings) (c : Config)
    (result : Except Fault Config) : Prop where
  good : (∀ f : FieldOf t, ∀ s, find? f.1.key entries = some s → f.1.read? s.found ≠ none) →
    ∃ d, result = .ok d ∧
      (∀ f : FieldOf t,
        f.1.value? ((find? f.1.key entries).map Setting.found) = some (d.held f.1)) ∧
      ∀ f : FieldName, f.home ≠ t → d.held f = c.held f
  bad : ∀ f : FieldOf t, ∀ s, find? f.1.key entries = some s → f.1.read? s.found = none →
    ∃ fault, result = .error fault

theorem setsSection_of_sets {σ : Type} {held : σ → FieldName → Held} {t : Section}
    {set : σ → Setting.Field → Except Fault σ} {start : σ} {c : Config} {put : σ → Config}
    (hsets : ∀ f : FieldName, f.home = t → ∀ s c, Sets held f s c (set c ⟨f.key, f.key, s⟩))
    (hother : ∀ g c, (∀ f : FieldName, f.home = t → g.name ≠ f.key) → set c g = .ok c)
    (hstart : held start = ({} : Config).held)
    (hput : ∀ x f, (put x).held f = if f.home = t then held x f else c.held f)
    {entries : Settings} (hn : (entries.map Prod.fst).Nodup) :
    SetsSection t entries c ((entries.foldlM (fieldStep set) start).map put) := by
  have hr := readsEntry_of_sets hsets hother
  have hfind {key : String} {s : Setting} : find? key entries = some s ↔ (key, s) ∈ entries :=
    Keyed.lookup_eq_some_iff_of_nodup hn
  constructor
  · intro hgood
    have hnone : ∀ i : FieldOf t, i.1.value? none = some (held start i.1) := by
      rw [hstart]
      exact fun _ => rfl
    obtain ⟨x, hx, hvalue⟩ := ReadsEntry.run_good (FieldOf.key_injective t) hn (fun e _ => hr e)
      (fun i s hm => hgood i s (hfind.2 hm)) hnone
    refine ⟨put x, by rw [hx]; rfl, fun f => ?_, fun f hf => ?_⟩
    · rw [hput, if_pos f.2]
      exact hvalue f
    · rw [hput, if_neg hf]
  · intro f s hs hbad
    obtain ⟨fault, hfault⟩ := ReadsEntry.run_bad (i := f) (fun e _ => hr e) (hfind.1 hs) hbad start
    exact ⟨fault, by rw [hfault]; rfl⟩

theorem setsSection_setSection (t : Section) {entries : Settings} (h : Ordered entries)
    (source : Source) (c : Config) :
    SetsSection t entries c (Setting.setSection c t.key (.table entries source)) := by
  cases t with
  | application =>
    rw [setSection_application]
    exact setsSection_of_sets (fun f hf => sets_setApplication hf)
      (fun g a hg => setApplication_other (hg .logLevel rfl) a) rfl
      (fun _ f => by cases f <;> rfl) h.nodup
  | storage =>
    rw [setSection_storage]
    exact setsSection_of_sets (fun f hf => sets_setStorage hf)
      (fun g s hg => setStorage_other hg s) rfl (fun _ f => by cases f <;> rfl) h.nodup

theorem setSection_other {k : String} (h : ∀ t : Section, k ≠ t.key) (s : Setting) (c : Config) :
    Setting.setSection c k s = .ok c := by
  unfold Setting.setSection
  split
  · next hk => exact absurd rfl (h .application)
  · next hk => exact absurd rfl (h .storage)
  · rfl

/-! ## Whole configurations -/

/-- A field of the section takes nothing from what stands at its key. -/
def Spoils (t : Section) (s : Setting) : Prop :=
  ∃ f : FieldOf t, ∃ v, s.child? f.1.key = some v ∧ f.1.read? v.found = none

/-- The configuration holds in the section what the setting says. -/
def HasSection (t : Section) (s? : Option Setting) (c : Config) : Prop :=
  ∀ f : FieldOf t, f.1.value? ((s?.bind (Setting.child? f.1.key)).map Setting.found) =
    some (c.held f.1)

theorem readsEntry_setSection {entry : String × Setting}
    (h : ∀ t : Section, entry.1 = t.key → entry.2.IsTable) :
    ReadsEntry (fun c e => Setting.setSection c e.1 e.2) Section.key Spoils HasSection entry := by
  obtain ⟨k, s⟩ := entry
  refine ⟨?_, ?_, fun hk c => setSection_other hk s c⟩
  · rintro t rfl hgood c
    obtain ⟨entries, source, rfl, he⟩ := h t rfl
    obtain ⟨d, hd, hself, hrest⟩ := (setsSection_setSection t he source c).good
      fun f v hv hbad => hgood ⟨f, v, hv, hbad⟩
    refine ⟨d, hd, hself, fun j hj s? hs f => ?_⟩
    rw [hrest f.1 fun hf => hj (f.2.symm.trans hf)]
    exact hs f
  · rintro t rfl ⟨f, v, hv, hbad⟩ c
    obtain ⟨entries, source, rfl, he⟩ := h t rfl
    exact (setsSection_setSection t he source c).bad f v hv hbad

theorem Sectioned.readsEntry {settings : Settings} (h : Sectioned settings) :
    ∀ entry ∈ settings,
      ReadsEntry (fun c e => Setting.setSection c e.1 e.2) Section.key Spoils HasSection entry := by
  intro entry hm
  refine readsEntry_setSection fun t ht => h.isTable t _ ?_
  exact h.ordered.find?_eq_some_iff.2 (ht ▸ hm)

/-- If every field takes what stands at its key, the configuration shows just that. -/
theorem toConfig_good {settings : Settings} (h : Sectioned settings)
    (hgood : ∀ f found, foundAt settings f = some found → f.read? found ≠ none) :
    ∃ c, Setting.toConfig settings = .ok c ∧ c.Shows (foundAt settings) := by
  have hsections : ∀ t s, (Section.key t, s) ∈ settings → ¬Spoils t s := by
    rintro t s hm ⟨⟨f, rfl⟩, v, hv, hbad⟩
    refine hgood f v.found ?_ hbad
    unfold foundAt at?
    rw [h.ordered.find?_eq_some_iff.2 hm, Option.bind_some, hv]
    rfl
  have hstart : ∀ t, HasSection t none {} := fun _ _ => rfl
  obtain ⟨c, hc, hshows⟩ :=
    ReadsEntry.run_good Section.key_injective h.ordered.nodup h.readsEntry hsections hstart
  exact ⟨c, hc, fun f => hshows f.home ⟨f, rfl⟩⟩

/-- If a field takes nothing from what stands at its key, there is no configuration. -/
theorem toConfig_bad {settings : Settings} (h : Sectioned settings) {f : FieldName} {found : Found}
    (hf : foundAt settings f = some found) (hbad : f.read? found = none) :
    ∃ fault, Setting.toConfig settings = .error fault := by
  obtain ⟨v, hv, rfl⟩ := Option.map_eq_some_iff.1 hf
  obtain ⟨s, hs, hv⟩ := Option.bind_eq_some_iff.1 hv
  exact ReadsEntry.run_bad h.readsEntry (h.ordered.find?_eq_some_iff.1 hs)
    ⟨⟨f, rfl⟩, v, hv, hbad⟩ {}

end ArrayStore.Config
