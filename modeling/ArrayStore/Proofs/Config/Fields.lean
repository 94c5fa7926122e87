import ArrayStore.Config.Setting

/-!
# The fields of a configuration

* `Section`, `FieldName` : the sections and their fields, with the keys that they have;
* `Held`, `Config.held` : what a configuration holds in a field;
* `FieldName.read?` : what a field takes from what stands at its key, if that has its type and
  range;
* `Config.Shows` : a configuration holds what is chosen for each field, the default where nothing
  is;
* `FieldName.Admits`, `check_eq_ok_iff` : a configuration is valid field by field;
* `Sets` : setting one field succeeds just if the field takes what stands at its key, and changes no
  other; `sets_setApplication`, `sets_setStorage` : so it is for every field of both sections.
-/

namespace ArrayStore.Config

/-! ## Names -/

inductive Section where
  | application
  | storage
  deriving DecidableEq, Repr

inductive FieldName where
  | logLevel
  | baseLocation
  | fileExtension
  | chunkRows
  | compressionLevel
  deriving DecidableEq, Repr

def Section.key : Section → String
  | .application => "application"
  | .storage => "storage"

/-- The section that a field belongs to. -/
def FieldName.home : FieldName → Section
  | .logLevel => .application
  | _ => .storage

def FieldName.key : FieldName → String
  | .logLevel => "log_level"
  | .baseLocation => "base_location"
  | .fileExtension => "file_extension"
  | .chunkRows => "chunk_rows"
  | .compressionLevel => "compression_level"

theorem Section.key_injective : Function.Injective Section.key := by
  intro s t h
  cases s <;> cases t <;> first | rfl | exact absurd h (by decide)

theorem FieldName.key_injective : Function.Injective FieldName.key := by
  intro f g h
  cases f <;> cases g <;> first | rfl | exact absurd h (by decide)

/-! ## Contents -/

/-- What a field holds. -/
inductive Held where
  | text (value : String)
  | natural (value : Nat)
  deriving DecidableEq, Repr

/-- What a configuration holds in a field. -/
def held (c : Config) : FieldName → Held
  | .logLevel => .text c.application.logLevel
  | .baseLocation => .text c.storage.baseLocation
  | .fileExtension => .text c.storage.fileExtension
  | .chunkRows => .natural c.storage.chunkRows
  | .compressionLevel => .natural c.storage.compressionLevel

def Found.text? : Found → Option String
  | .scalar (.text value) => some value
  | _ => none

def Found.below? (bound : Nat) : Found → Option Nat
  | .scalar (.signed value) => if 0 ≤ value ∧ value < bound then some value.toNat else none
  | .scalar (.unsigned value) => if value < bound then some value else none
  | _ => none

/-- What a field takes from what stands at its key, if that has the type and the range of the
field. -/
def FieldName.read? (f : FieldName) (found : Found) : Option Held :=
  match f with
  | .logLevel => found.text?.map .text
  | .baseLocation => found.text?.map .text
  | .fileExtension => found.text?.map .text
  | .chunkRows => (found.below? Word.limit).map .natural
  | .compressionLevel => (found.below? 256).map .natural

/-- What a field holds by what is chosen for it, the default if nothing is. -/
def FieldName.value? (f : FieldName) : Option Found → Option Held
  | none => some (({} : Config).held f)
  | some found => f.read? found

/-- The configuration holds what is chosen for each field, the default where nothing is. -/
def Shows (c : Config) (choice : FieldName → Option Found) : Prop :=
  ∀ f, f.value? (choice f) = some (c.held f)

/-- The fields make up the configuration. -/
theorem ext_held {c d : Config} (h : ∀ f, c.held f = d.held f) : c = d := by
  obtain ⟨⟨logLevel⟩, ⟨baseLocation, fileExtension, chunkRows, compressionLevel⟩⟩ := c
  obtain ⟨⟨_⟩, ⟨_, _, _, _⟩⟩ := d
  cases h .logLevel
  cases h .baseLocation
  cases h .fileExtension
  cases h .chunkRows
  cases h .compressionLevel
  rfl

/-- There is one configuration at most. -/
theorem Shows.unique {c d : Config} {choice : FieldName → Option Found} (hc : c.Shows choice)
    (hd : d.Shows choice) : c = d :=
  ext_held fun f => Option.some.inj ((hc f).symm.trans (hd f))

theorem Shows.reads {c : Config} {choice : FieldName → Option Found} (hc : c.Shows choice) :
    ∀ f found, choice f = some found → f.read? found ≠ none := by
  intro f found hf hread
  have hheld := hc f
  rw [hf, FieldName.value?, hread] at hheld
  cases hheld

/-- A configuration may hold it in the field. -/
def FieldName.Admits : FieldName → Held → Prop
  | .logLevel, .text value => value ∈ logLevels
  | .baseLocation, .text _ => True
  | .fileExtension, .text value => isBareExtension value = true
  | .chunkRows, .natural value => value ≠ 0
  | .compressionLevel, .natural value => value ≤ 9
  | _, _ => False

/-- A configuration is valid field by field. -/
theorem check_eq_ok_iff (c : Config) :
    c.check = .ok () ↔ ∀ f : FieldName, f.Admits (c.held f) := by
  constructor
  · intro h f
    unfold check at h
    split at h
    · cases h
    · split at h
      · cases h
      · split at h
        · cases h
        · split at h
          · cases h
          · cases f <;> simp_all [FieldName.Admits, held]
  · intro h
    have hlog : c.application.logLevel ∈ logLevels := h .logLevel
    have hextension : isBareExtension c.storage.fileExtension = true := h .fileExtension
    have hrows : c.storage.chunkRows ≠ 0 := h .chunkRows
    have hlevel : c.storage.compressionLevel ≤ 9 := h .compressionLevel
    simp [check, hlog, hextension, hrows, hlevel]

theorem validate_eq_ok_iff {c d : Config} : c.validate = .ok d ↔ c = d ∧ c.check = .ok () := by
  unfold validate
  cases c.check with
  | ok _ => simp
  | error invalid => simp

/-! ## Single settings -/

theorem exists_source_of_text? {s : Setting} {text : String} (h : s.found.text? = some text) :
    ∃ source, s = .scalar (.text text) source := by
  cases s with
  | scalar value source =>
    cases value with
    | text other =>
      cases h
      exact ⟨source, rfl⟩
    | _ => cases h
  | sequence items source => cases h
  | table entries source => cases h

theorem toText_good {s : Setting} {value : String} (h : s.found.text? = some value)
    (expected : Expected) (path : List String) : s.toText expected path = .ok value := by
  obtain ⟨source, rfl⟩ := exists_source_of_text? h
  rfl

theorem toText_eq_wrongKind {s : Setting} (h : s.found.text? = none) (expected : Expected)
    (path : List String) : s.toText expected path = s.wrongKind expected path := by
  cases s with
  | scalar scalar source =>
    cases scalar with
    | text value => cases h
    | _ => rfl
  | sequence items source => rfl
  | table entries source => rfl

theorem toText_bad {s : Setting} (h : s.found.text? = none) (expected : Expected)
    (path : List String) : ∃ fault, s.toText expected path = .error fault :=
  ⟨_, toText_eq_wrongKind h expected path⟩

theorem toNatural_good {s : Setting} {bound value : Nat} (h : s.found.below? bound = some value)
    (expected : Expected) (path : List String) :
    s.toNatural bound expected path = .ok value := by
  cases s with
  | scalar scalar source =>
    cases scalar with
    | signed n =>
      obtain ⟨hn, hvalue⟩ := Option.ite_none_right_eq_some.1 h
      cases hvalue
      simp [Setting.toNatural, hn]
    | unsigned n =>
      obtain ⟨hn, hvalue⟩ := Option.ite_none_right_eq_some.1 h
      cases hvalue
      simp [Setting.toNatural, hn]
    | _ => cases h
  | sequence items source => cases h
  | table entries source => cases h

theorem toNatural_bad {s : Setting} {bound : Nat} (h : s.found.below? bound = none)
    (expected : Expected) (path : List String) :
    ∃ fault, s.toNatural bound expected path = .error fault := by
  cases s with
  | scalar scalar source =>
    cases scalar with
    | signed n =>
      have hn : ¬(0 ≤ n ∧ n < bound) := fun hn => by simp [Setting.found, Found.below?, hn] at h
      exact ⟨_, by simp [Setting.toNatural, hn]; rfl⟩
    | unsigned n =>
      have hn : ¬n < bound := fun hn => by simp [Setting.found, Found.below?, hn] at h
      exact ⟨_, by simp [Setting.toNatural, hn]; rfl⟩
    | _ => exact ⟨_, rfl⟩
  | sequence items source => exact ⟨_, rfl⟩
  | table entries source => exact ⟨_, rfl⟩

/-! ## Single fields -/

/-- Setting a field succeeds with what the field takes and changes no other, or fails if the field
takes nothing. -/
structure Sets {σ : Type} (held : σ → FieldName → Held) (f : FieldName) (s : Setting) (c : σ)
    (result : Except Fault σ) : Prop where
  good : ∀ value, f.read? s.found = some value →
    ∃ d, result = .ok d ∧ ∀ g, held d g = if g = f then value else held c g
  bad : f.read? s.found = none → ∃ fault, result = .error fault

theorem sets_of_reads {σ α : Type} {held : σ → FieldName → Held} {f : FieldName} {s : Setting}
    {c : σ} {value? : Option α} {read : Except Fault α} {wrap : α → Held} {set : α → σ}
    (hgood : ∀ value, value? = some value → read = .ok value)
    (hbad : value? = none → ∃ fault, read = .error fault)
    (hread : f.read? s.found = value?.map wrap)
    (hset : ∀ value g, held (set value) g = if g = f then wrap value else held c g) :
    Sets held f s c (do return set (← read)) := by
  constructor
  · intro taken h
    rw [hread] at h
    obtain ⟨value, hvalue, rfl⟩ := Option.map_eq_some_iff.1 h
    exact ⟨set value, by rw [hgood value hvalue]; rfl, hset value⟩
  · intro h
    rw [hread] at h
    obtain ⟨fault, hfault⟩ := hbad (Option.map_eq_none_iff.1 h)
    exact ⟨fault, by rw [hfault]; rfl⟩

def Application.held (a : Application) : FieldName → Held := Config.held { application := a }

def Storage.held (s : Storage) : FieldName → Held := Config.held { storage := s }

theorem sets_setApplication {f : FieldName} (h : f.home = .application) (s : Setting)
    (a : Application) :
    Sets Application.held f s a (Setting.setApplication a ⟨f.key, f.key, s⟩) := by
  cases f with
  | logLevel =>
    exact sets_of_reads (fun _ h => toText_good h _ _) (fun h => toText_bad h _ _) rfl
      fun _ g => by cases g <;> rfl
  | _ => cases h

theorem sets_setStorage {f : FieldName} (h : f.home = .storage) (s : Setting) (c : Storage) :
    Sets Storage.held f s c (Setting.setStorage c ⟨f.key, f.key, s⟩) := by
  cases f with
  | logLevel => cases h
  | baseLocation =>
    exact sets_of_reads (fun _ h => toText_good h _ _) (fun h => toText_bad h _ _) rfl
      fun _ g => by cases g <;> rfl
  | fileExtension =>
    exact sets_of_reads (fun _ h => toText_good h _ _) (fun h => toText_bad h _ _) rfl
      fun _ g => by cases g <;> rfl
  | chunkRows =>
    exact sets_of_reads (fun _ h => toNatural_good h _ _) (fun h => toNatural_bad h _ _) rfl
      fun _ g => by cases g <;> rfl
  | compressionLevel =>
    exact sets_of_reads (fun _ h => toNatural_good h _ _) (fun h => toNatural_bad h _ _) rfl
      fun _ g => by cases g <;> rfl

/-- A base location that is no text is a fault, and this is what it says. -/
theorem setStorage_baseLocation {s : Setting} (h : s.found.text? = none) (c : Storage) :
    Setting.setStorage c ⟨FieldName.baseLocation.key, FieldName.baseLocation.key, s⟩ =
      .error (.wrongKind s.found .path ["storage", "base_location"] s.source) := by
  have hfault := toText_eq_wrongKind h .path ["storage", "base_location"]
  show (s.toText .path ["storage", "base_location"] >>= _) = _
  rw [hfault]
  rfl

theorem setApplication_other {f : Setting.Field} (h : f.name ≠ FieldName.logLevel.key)
    (a : Application) : Setting.setApplication a f = .ok a := by
  unfold Setting.setApplication
  split
  · next hname => exact absurd hname h
  · rfl

theorem setStorage_other {f : Setting.Field}
    (h : ∀ g : FieldName, g.home = .storage → f.name ≠ g.key) (c : Storage) :
    Setting.setStorage c f = .ok c := by
  unfold Setting.setStorage
  split
  · next hname => exact absurd hname (h .baseLocation rfl)
  · next hname => exact absurd hname (h .fileExtension rfl)
  · next hname => exact absurd hname (h .chunkRows rfl)
  · next hname => exact absurd hname (h .compressionLevel rfl)
  · rfl

end ArrayStore.Config
