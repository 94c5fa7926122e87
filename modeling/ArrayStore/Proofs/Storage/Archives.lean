import ArrayStore.Proofs.Storage.Acceptance
import ArrayStore.Proofs.Storage.Reloading
import ArrayStore.Storage.Archive

/-!
# Archives only grow

* `Archive.Sound` : the open container is there, and its path is known;
* `Archive.Extends` : in no container a stored row is taken away or changed;
* `Archive.Operation`, `Archive.run` : the operations of a store, one after the other;
* `Archive.sound_run`, `Archive.extends_run` : so it is after every run, also when operations fail,
  if nothing is replaced by force;
* `Archive.write_new` : where nothing fails, a data set is written to its new container;
* `Archive.write_again` : writing again what has been written changes nothing;
* `Archive.read_write` : what has been written is read by any store.
-/

namespace ArrayStore.Archive
variable {p : Platform} {a b : Archive} {s : DataSet} {file : String}

theorem container?_put (a : Archive) (file : String) (c : Contents) (other : String) :
    (a.put file c).container? other = if other = file then some c else a.container? other :=
  Keyed.find?_insert file other c a.containers

theorem container?_opening (a : Archive) (path file other : String) :
    (a.opening path file).container? other = a.container? other := rfl

/-! ## What the operations do -/

/-- The open container is there, and the store names it by one of its paths. -/
def Sound (fileOf : String → String) (a : Archive) : Prop :=
  ∀ file, a.opened? = some file →
    (∃ path, a.store.openPath = some path ∧ fileOf path = file) ∧
      (a.container? file).isSome = true

/-- No container has lost a row, and none has gone. -/
def Extends (a b : Archive) : Prop :=
  ∀ file c, a.container? file = some c → ∃ d, b.container? file = some d ∧ c.Extends d

theorem Extends.refl (a : Archive) : a.Extends a := fun _ c hc => ⟨c, hc, Contents.Extends.refl c⟩

theorem Extends.trans {c : Archive} (h : a.Extends b) (h' : b.Extends c) : a.Extends c := by
  intro file d hd
  obtain ⟨e, he, hde⟩ := h file d hd
  obtain ⟨f, hf, hef⟩ := h' file e he
  exact ⟨f, hf, hde.trans hef⟩

theorem extends_put {c : Contents} (h : ∀ d, a.container? file = some d → d.Extends c) :
    a.Extends (a.put file c) := by
  intro other d hd
  rw [container?_put]
  split
  · next heq =>
    subst heq
    exact ⟨c, rfl, h d hd⟩
  · exact ⟨d, hd, Contents.Extends.refl d⟩

theorem sound_put {fileOf : String → String} (ha : Sound fileOf a) (file : String) (c : Contents) :
    Sound fileOf (a.put file c) := by
  intro other ho
  obtain ⟨hpath, hthere⟩ := ha other ho
  refine ⟨hpath, ?_⟩
  rw [container?_put]
  split
  · rfl
  · exact hthere

theorem sound_opening {path : String} (h : (a.container? (p.fileOf path)).isSome = true) :
    Sound p.fileOf (a.opening path (p.fileOf path)) := by
  intro file hfile
  cases hfile
  exact ⟨⟨path, rfl, rfl⟩, h⟩

theorem openToWrite_ensures (p : Platform) (path : String) (a : Archive) :
    (openToWrite p path).Ensures a fun _ b => Sound p.fileOf b ∧ a.Extends b := by
  refine Session.ensures_get_bind ?_
  split
  · exact ⟨fun _ h => (by cases h), Extends.refl a⟩
  · refine ⟨sound_opening ?_, extends_put fun d hd => ?_⟩
    · rw [container?_put, if_pos rfl]
      rfl
    · rw [hd]
      exact Contents.Extends.refl d

theorem inOpened_ensures {fileOf : String → String} (m : Session Contents Unit)
    (ha : Sound fileOf a) : (inOpened m).Ensures a fun _ b =>
      Sound fileOf b ∧ ((∀ c, m.Ensures c fun _ d => c.Extends d) → a.Extends b) := by
  refine Session.ensures_get_bind ?_
  split
  · exact ⟨ha, fun _ => Extends.refl a⟩
  · next file hfile =>
    refine ⟨sound_put ha file _, fun hm => extends_put fun d hd => ?_⟩
    rw [hd]
    exact hm d

theorem write_ensures (p : Platform) (s : DataSet) (force : Bool) (ha : Sound p.fileOf a) :
    (write p s force).Ensures a fun _ b => Sound p.fileOf b ∧ (force = false → a.Extends b) := by
  have hstore : ∀ b, Sound p.fileOf b → a.Extends b →
      (inOpened (p.toBackend.store a.store.chunking s force)).Ensures b fun _ c =>
        Sound p.fileOf c ∧ (force = false → a.Extends c) := by
    intro b hb hab
    refine (inOpened_ensures _ hb).mono fun _ c h => ⟨h.1, fun hforce => hab.trans (h.2 ?_)⟩
    cases hforce
    exact fun c => p.store_extends a.store.chunking s c
  refine Session.ensures_get_bind ?_
  split
  · refine Session.ensures_lift_bind (fun path _ => ?_) fun _ _ => ⟨ha, fun _ => Extends.refl a⟩
    exact (openToWrite_ensures p path a).bind (fun _ b h => hstore b h.1 h.2)
      fun _ b h => ⟨h.1, fun _ => h.2⟩
  · exact hstore a ha (Extends.refl a)

theorem storeSnapshot_ensures (p : Platform) (values : Snapshot) (ha : Sound p.fileOf a) :
    (storeSnapshot p values).Ensures a fun _ b => Sound p.fileOf b ∧ a.Extends b := by
  refine Session.ensures_get_bind ((inOpened_ensures _ ha).mono fun _ b h => ⟨h.1, h.2 fun c => ?_⟩)
  exact p.toBackend.storeSnapshot_extends _ values c

theorem openToRead_eq_ok {path : String} {c : Contents} (h : a.openToRead p path = .ok c) :
    p.openFailure? path = none ∧ a.container? (p.fileOf path) = some c := by
  unfold openToRead at h
  split at h
  · cases h
  · cases h
  · next hfailure hc => exact ⟨hfailure, hc.trans (congrArg some (Except.ok.inj h))⟩

theorem read_ensures (p : Platform) (arithmetic : Arithmetic) (tree : FileTree)
    (directory : List String) (s : DataSet) (ha : Sound p.fileOf a) :
    (read p arithmetic tree directory).Ensures (a, s) fun _ b =>
      Sound p.fileOf b.1 ∧ b.1.containers = a.containers := by
  refine Session.ensures_get_bind
    (Session.ensures_lift_bind (fun path _ => ?_) fun _ _ => ⟨ha, rfl⟩)
  refine Session.ensures_lift_bind (fun c hc => ?_) fun _ _ => ⟨ha, rfl⟩
  refine Session.ensures_set_bind (Session.ensures_lift_bind (fun _ _ => ?_) fun _ _ => ⟨ha, rfl⟩)
  refine ⟨sound_opening ?_, rfl⟩
  rw [(openToRead_eq_ok hc).2]
  rfl

theorem close_ensures (p : Platform) (a : Archive) :
    (close p).Ensures a fun _ b => Sound p.fileOf b ∧ b.containers = a.containers := by
  refine Session.ensures_get_bind (Session.ensures_set_bind ?_)
  split <;> exact ⟨fun _ h => (by cases h), rfl⟩

/-! ## Runs -/

/-- An operation of a store; reading is into a data set. -/
inductive Operation where
  | write (s : DataSet) (force : Bool)
  | read (arithmetic : Arithmetic) (tree : FileTree) (directory : List String) (s : DataSet)
  | storeSnapshot (values : Snapshot)
  | close

namespace Operation

/-- What an operation leaves, whatever it answers. -/
def after (p : Platform) (a : Archive) : Operation → Archive
  | write s force => ((Archive.write p s force).outcome a).2
  | read arithmetic tree directory s =>
    ((Archive.read p arithmetic tree directory).outcome (a, s)).2.1
  | storeSnapshot values => ((Archive.storeSnapshot p values).outcome a).2
  | close => ((Archive.close p).outcome a).2

/-- A forced write replaces what is there. -/
def replaces : Operation → Bool
  | write _ force => force
  | _ => false

theorem after_ensures (p : Platform) (ha : Sound p.fileOf a) (operation : Operation) :
    Sound p.fileOf (operation.after p a) ∧
      (operation.replaces = false → a.Extends (operation.after p a)) := by
  have hsame : ∀ b : Archive, b.containers = a.containers → a.Extends b := by
    intro b hb file c hc
    refine ⟨c, ?_, Contents.Extends.refl c⟩
    rwa [container?, hb]
  cases operation with
  | write s force => exact write_ensures p s force ha
  | read arithmetic tree directory s =>
    obtain ⟨hsound, hcontainers⟩ := read_ensures p arithmetic tree directory s ha
    exact ⟨hsound, fun _ => hsame _ hcontainers⟩
  | storeSnapshot values =>
    obtain ⟨hsound, hextends⟩ := storeSnapshot_ensures p values ha
    exact ⟨hsound, fun _ => hextends⟩
  | close =>
    obtain ⟨hsound, hcontainers⟩ := close_ensures p a
    exact ⟨hsound, fun _ => hsame _ hcontainers⟩

end Operation

/-- The archive after operations. Each finds the platform as it is at that time. -/
def run (a : Archive) (operations : List (Platform × Operation)) : Archive :=
  operations.foldl (fun a entry => entry.2.after entry.1 a) a

section Run
variable {fileOf : String → String} {operations : List (Platform × Operation)}

theorem sound_run (ha : Sound fileOf a) (hfiles : ∀ entry ∈ operations, entry.1.fileOf = fileOf) :
    Sound fileOf (a.run operations) := by
  induction operations generalizing a with
  | nil => exact ha
  | cons entry operations ih =>
    obtain ⟨rfl, hfiles⟩ := List.forall_mem_cons.1 hfiles
    exact ih (entry.2.after_ensures entry.1 ha).1 hfiles

/-- As long as nothing is replaced by force, no container loses a row or a snapshot, whatever else
is written, read and closed, and whatever fails. -/
theorem extends_run (ha : Sound fileOf a) (hfiles : ∀ entry ∈ operations, entry.1.fileOf = fileOf)
    (hkeeps : ∀ entry ∈ operations, entry.2.replaces = false) : a.Extends (a.run operations) := by
  induction operations generalizing a with
  | nil => exact Extends.refl a
  | cons entry operations ih =>
    obtain ⟨rfl, hfiles⟩ := List.forall_mem_cons.1 hfiles
    obtain ⟨hentry, hkeeps⟩ := List.forall_mem_cons.1 hkeeps
    obtain ⟨hsound, hextends⟩ := entry.2.after_ensures entry.1 ha
    exact (hextends hentry).trans (ih hsound hfiles hkeeps)

end Run

/-! ## Accepted writes -/

theorem put_put (a : Archive) (file : String) (c d : Contents) :
    (a.put file c).put file d = a.put file d := by
  unfold put
  rw [Keyed.insert_insert]

theorem inOpened_outcome (m : Session Contents Unit) (hfile : a.opened? = some file) :
    (inOpened m).outcome a = ((m.outcome ((a.container? file).getD {})).1,
      a.put file (m.outcome ((a.container? file).getD {})).2) := by
  rw [inOpened, Session.outcome_get_bind, hfile]
  exact Session.outcome_lift _ _

theorem inOpened_eq_ok {m : Session Contents Unit} (h : (inOpened m).outcome a = (.ok (), b)) :
    ∃ file d, a.opened? = some file ∧ m.outcome ((a.container? file).getD {}) = (.ok (), d) ∧
      b = a.put file d := by
  cases hfile : a.opened? with
  | none =>
    rw [inOpened, Session.outcome_get_bind, hfile] at h
    cases h
  | some file =>
    rw [inOpened_outcome m hfile] at h
    obtain ⟨hanswer, hput⟩ := Prod.mk.inj h
    exact ⟨file, _, rfl, Prod.ext hanswer rfl, hput.symm⟩

theorem openToWrite_eq_ok {path : String} (h : (openToWrite p path).outcome a = (.ok (), b)) :
    b = (a.put (p.fileOf path) ((a.container? (p.fileOf path)).getD {})).opening path
      (p.fileOf path) := by
  rw [openToWrite, Session.outcome_get_bind] at h
  cases hfailure : p.openFailure? path with
  | some e =>
    rw [hfailure] at h
    cases h
  | none =>
    rw [hfailure] at h
    exact (congrArg Prod.snd h).symm

/-- What an accepted write has done: in the container that was open, or in that of the location. -/
theorem write_eq_ok {force : Bool} (h : (write p s force).outcome a = (.ok (), b)) :
    ∃ file d, (p.toBackend.store a.store.chunking s force).outcome
        ((a.container? file).getD {}) = (.ok (), d) ∧
      (a.opened? = some file ∧ force = false ∧ b = a.put file d ∨
        (a.opened? = none ∨ force = true) ∧ ∃ path, a.store.pathOf s = .ok path ∧
          p.fileOf path = file ∧ b = (a.put file d).opening path file) := by
  rw [write, Session.outcome_get_bind] at h
  split at h
  · next hopens =>
    rw [Session.outcome_bind, Session.outcome_lift] at h
    cases hpath : a.store.pathOf s with
    | error fault =>
      rw [hpath] at h
      cases h
    | ok path =>
      rw [hpath] at h
      replace h : ((openToWrite p path) >>= fun _ =>
        inOpened (p.toBackend.store a.store.chunking s force)).outcome a = (.ok (), b) := h
      rw [Session.outcome_bind] at h
      rcases hopen : (openToWrite p path).outcome a with ⟨_ | _, a'⟩
      · rw [hopen] at h
        cases h
      · rw [hopen] at h
        cases openToWrite_eq_ok hopen
        obtain ⟨file, d, hfile, hstore, rfl⟩ := inOpened_eq_ok h
        cases hfile
        refine ⟨p.fileOf path, d, ?_, Or.inr ⟨?_, path, rfl, rfl, ?_⟩⟩
        · rw [container?_opening, container?_put, if_pos rfl] at hstore
          exact hstore
        · rwa [Bool.or_eq_true, Option.isNone_iff_eq_none] at hopens
        · show ((a.put _ _).put _ d).opening path _ = _
          rw [put_put]
  · next hopens =>
    obtain ⟨file, d, hfile, hstore, rfl⟩ := inOpened_eq_ok h
    refine ⟨file, d, hstore, Or.inl ⟨hfile, ?_, rfl⟩⟩
    rw [hfile] at hopens
    exact Bool.eq_false_iff.2 hopens

theorem write_of_opened {c d : Contents} (hopened : a.opened? = some file)
    (hc : a.container? file = some c)
    (h : (p.toBackend.store a.store.chunking s false).outcome c = (.ok (), d)) :
    (write p s false).outcome a = (.ok (), a.put file d) := by
  rw [write, Session.outcome_get_bind, hopened]
  show (inOpened (p.toBackend.store a.store.chunking s false)).outcome a = _
  rw [inOpened_outcome _ hopened, hc, Option.getD_some, h]

/-- Where nothing fails, a data set is written to the container of its location, if that is not
there. -/
theorem write_new {force : Bool} {path : String} (hp : p.toBackend.NeverFails)
    (hopen : p.openFailure? path = none) (hn : (s.arrays.map DataArray.id).Nodup)
    (hopens : a.opened? = none ∨ force = true) (hpath : a.store.pathOf s = .ok path)
    (hnew : a.container? (p.fileOf path) = none) :
    ∃ d, (write p s force).outcome a =
      (.ok (), (a.put (p.fileOf path) d).opening path (p.fileOf path)) := by
  obtain ⟨d, hd⟩ : ∃ d, (p.toBackend.store a.store.chunking s force).outcome {} = (.ok (), d) := by
    cases force with
    | true => exact Backend.store_forced hp a.store.chunking s rfl
    | false => exact (Backend.store_outcome hp hn rfl).1 fun _ _ => rfl
  have hopened : (openToWrite p path).outcome a =
      (.ok (), (a.put (p.fileOf path) {}).opening path (p.fileOf path)) := by
    rw [openToWrite, Session.outcome_get_bind, hopen]
    dsimp only
    rw [hnew]
    rfl
  refine ⟨d, ?_⟩
  rw [write, Session.outcome_get_bind,
    if_pos (by rwa [Bool.or_eq_true, Option.isNone_iff_eq_none]), Session.outcome_bind,
    Session.outcome_lift, hpath]
  show ((openToWrite p path) >>= fun _ =>
    inOpened (p.toBackend.store a.store.chunking s force)).outcome a = _
  rw [Session.outcome_bind, hopened]
  dsimp only
  rw [inOpened_outcome _ rfl, container?_opening, container?_put, if_pos rfl, Option.getD_some, hd]
  show (Except.ok (), ((a.put _ {}).put _ d).opening path _) = _
  rw [put_put]

/-- Writing a data set again changes nothing, whatever may fail in the meantime. -/
theorem write_again {force : Bool} (hn : (s.arrays.map DataArray.id).Nodup)
    (hmark : ∀ file c, a.container? file = some c →
      c.attributes.lookup Container.layoutAttribute = none)
    (h : (write p s force).outcome a = (.ok (), b)) (p' : Platform) :
    (write p' s false).outcome b = (.ok (), b) := by
  obtain ⟨file, d, hstore, hb⟩ := write_eq_ok h
  have hunmarked : ((a.container? file).getD {}).attributes.lookup Container.layoutAttribute =
      none := by
    cases hc : a.container? file with
    | none => rfl
    | some c => exact hmark file c hc
  have hagain := Backend.store_again hn hunmarked hstore p'.toBackend b.store.chunking
  have hthere : b.opened? = some file ∧ b.container? file = some d ∧ b.put file d = b := by
    have hput : (a.put file d).container? file = some d := by
      rw [container?_put, if_pos rfl]
    rcases hb with ⟨hopened, -, rfl⟩ | ⟨-, path, -, rfl, rfl⟩
    · exact ⟨hopened, hput, put_put a file d d⟩
    · exact ⟨rfl, hput, congrArg (opening · path (p.fileOf path)) (put_put a _ d d)⟩
  obtain ⟨hopened, hc, hput⟩ := hthere
  rw [write_of_opened hopened hc hagain, hput]

/-- What has been written to a container that was not there is read by any store, through any path
of the file, into a data set with the arrays in the order of their ids. -/
theorem read_write {force : Bool} (hs : DataSet.Coherent s)
    (hopens : a.opened? = none ∨ force = true)
    (hnew : ∀ path, a.store.pathOf s = .ok path → a.container? (p.fileOf path) = none)
    (h : (write p s force).outcome a = (.ok (), b)) :
    ∃ path, a.store.pathOf s = .ok path ∧ ∀ (p' : Platform) (c : Archive)
      (arithmetic : Arithmetic) (tree : FileTree) (directory : List String) (location : String)
      (disk : Disk) (path' : String),
      c.containers = b.containers → p'.fileOf path' = p.fileOf path →
      p'.openFailure? path' = none →
      c.store.pathToOpen tree directory { location, disk } = .ok path' →
      ∃ t, (read p' arithmetic tree directory).outcome (c, { location, disk }) =
          (.ok (), c.opening path' (p.fileOf path), t) ∧ t.size = s.size ∧
        (t.arrays.map DataArray.id).Pairwise (fun x y => Text.precedes x y = true) ∧
        ∀ x ∈ s.arrays, t.described x.id = some (s.reloaded x) := by
  obtain ⟨file, d, hstore, hb⟩ := write_eq_ok h
  have hlocated : ∃ path, a.store.pathOf s = .ok path ∧ p.fileOf path = file ∧
      b = (a.put file d).opening path file := by
    rcases hb with ⟨hopened, hforce, -⟩ | ⟨-, hlocated⟩
    · rw [hopened, hforce] at hopens
      rcases hopens with h | h <;> cases h
    · exact hlocated
  obtain ⟨path, hpath, rfl, rfl⟩ := hlocated
  rw [hnew path hpath, Option.getD_none] at hstore
  refine ⟨path, hpath, fun p' c arithmetic tree directory location disk path' hsame hfile hopen
    hread => ?_⟩
  obtain ⟨t, ht, hsize, hordered, harrays⟩ :=
    Backend.load_store hs hstore p'.toBackend arithmetic location disk
  refine ⟨t, ?_, hsize, hordered, harrays⟩
  have hc : c.openToRead p' path' = .ok d := by
    have hthere : c.container? (p'.fileOf path') = some d := by
      rw [container?, hsame, hfile]
      exact (container?_put a (p.fileOf path) d _).trans (if_pos rfl)
    rw [openToRead, hopen, hthere]
  rw [read, Session.outcome_get_bind]
  dsimp only
  rw [hread, Session.outcome_bind, Session.outcome_lift]
  dsimp only [Except.mapError]
  rw [hc, Session.outcome_bind, Session.outcome_lift]
  dsimp only
  rw [ht, ← hfile]
  rfl

/-- A platform on which nothing fails. -/
def unfailing : Platform where
  unstorable? _ := none
  failure? _ _ := none
  wording _ := "refused"
  fileOf path := path
  openFailure? _ := none
  flushFailure? _ := none

theorem neverFails_unfailing : unfailing.toBackend.NeverFails := ⟨fun _ => rfl, fun _ _ => rfl⟩

/-- A current that is measured against a voltage. Its third row has not been measured. -/
def halfMeasured : DataSet where
  location := "runs/iv"
  disk := { base := "/data" }
  arrays :=
    [{ id := "v", isSetpoint := true, units := ["V"], samples := .replicate 3 (Double.zero false) },
      { id := "i", setArrays := [⟨0⟩], samples := .replicate 2 (Double.zero false) ++ [.nan] }]
  index := [("i", ⟨1⟩), ("v", ⟨0⟩)]

example :
    let archive := ((write unfailing halfMeasured false).outcome { store := .standard }).2
    let answer := (read unfailing .checked (.ofPaths [] []) []).outcome
      (archive, { location := "runs/iv", disk := { base := "/data" } })
    answer.1 = .ok () ∧ answer.2.2.arrays =
      [{ id := "i", givenName := some "i", givenLabel := some "i", setArrays := [⟨1⟩],
          samples := .replicate 2 (Double.zero false) },
        { id := "v", givenName := some "v", givenLabel := some "v", units := ["V"],
          isSetpoint := true, samples := .replicate 3 (Double.zero false) }] := by
  decide +kernel

end ArrayStore.Archive
