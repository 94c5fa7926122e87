import ArrayStore.Proofs.Keyed
import ArrayStore.Storage.Writing

/-!
# What sequences of operations do

* `Session.Ensures` : what holds of the answer and of the state that is left, failures included,
  with one rule for each way to put operations together;
* `Backend.change_ensures` : a change is made or leaves everything;
* `Contents.Frame` : nothing but the table of one id differs.
-/

namespace ArrayStore

/-! ## Sequences of operations -/

namespace Session
variable {σ α β : Type} {m : Session σ α} {f : α → Session σ β} {s : σ}

theorem outcome_bind (m : Session σ α) (f : α → Session σ β) (s : σ) :
    (m >>= f : Session σ β).outcome s = match m.outcome s with
      | (.ok a, t) => (f a).outcome t
      | (.error e, t) => (.error e, t) := by
  show (((m.run >>= ExceptT.bindCont f) : StateM σ (Except StoreError β)).run s).run = _
  rw [StateT.run_bind]
  show (ExceptT.bindCont f (m.run.run s).run.1).run (m.run.run s).run.2 = _
  unfold outcome
  rcases (m.run.run s).run with ⟨_ | _, _⟩ <;> rfl

theorem outcome_get_bind (f : σ → Session σ β) (s : σ) :
    (get >>= f : Session σ β).outcome s = (f s).outcome s := rfl

theorem outcome_lift (e : Except StoreError α) (s : σ) :
    (liftM e : Session σ α).outcome s = (e, s) := by
  cases e <;> rfl

/-- Whatever is answered, this holds of the answer and of the state that is left. -/
def Ensures (m : Session σ α) (s : σ) (post : Except StoreError α → σ → Prop) : Prop :=
  post (m.outcome s).1 (m.outcome s).2

variable {post post' : Except StoreError α → σ → Prop} {post'' : Except StoreError β → σ → Prop}

theorem Ensures.mono (h : m.Ensures s post) (hp : ∀ answer t, post answer t → post' answer t) :
    m.Ensures s post' := hp _ _ h

theorem Ensures.bind (h : m.Ensures s post)
    (hok : ∀ a t, post (.ok a) t → (f a).Ensures t post'')
    (herror : ∀ e t, post (.error e) t → post'' (.error e) t) :
    (m >>= f : Session σ β).Ensures s post'' := by
  unfold Ensures at h ⊢
  rw [outcome_bind]
  rcases hm : m.outcome s with ⟨_ | _, t⟩ <;> rw [hm] at h
  · exact herror _ t h
  · exact hok _ t h

theorem ensures_pure (a : α) (h : post (.ok a) s) : (pure a : Session σ α).Ensures s post := h

theorem ensures_throw (e : StoreError) (h : post (.error e) s) :
    (throw e : Session σ α).Ensures s post := h

theorem ensures_get_bind {f : σ → Session σ β} (h : (f s).Ensures s post'') :
    (get >>= f : Session σ β).Ensures s post'' := h

theorem ensures_set_bind {f : PUnit → Session σ β} {t : σ} (h : (f ⟨⟩).Ensures t post'') :
    (set t >>= f : Session σ β).Ensures s post'' := h

theorem ensures_lift_bind {e : Except StoreError α}
    (hok : ∀ a, e = .ok a → (f a).Ensures s post'')
    (herror : ∀ fault, e = .error fault → post'' (.error fault) s) :
    (liftM e >>= f : Session σ β).Ensures s post'' := by
  cases e with
  | ok a => exact hok a rfl
  | error fault => exact herror fault rfl

/-- What every element keeps, the whole list keeps. -/
theorem ensures_forM {f : α → Session σ PUnit} {keeps : σ → Prop} {l : List α}
    (hstep : ∀ a ∈ l, ∀ s, keeps s → (f a).Ensures s fun _ t => keeps t) (hs : keeps s) :
    (l.forM f).Ensures s fun _ t => keeps t := by
  induction l generalizing s with
  | nil => exact hs
  | cons a l ih =>
    obtain ⟨ha, hstep⟩ := List.forall_mem_cons.1 hstep
    exact (ha s hs).bind (fun _ t ht => ih hstep ht) fun _ _ ht => ht

end Session

/-! ## Single changes -/

namespace Contents
variable {c d : Contents} {id : String}

theorem table?_putTable (c : Contents) (id : String) (t : StoredTable) (other : String) :
    (c.putTable id t).table? other = if other = id then some t else c.table? other :=
  Keyed.find?_insert id other t c.tables

/-- Nothing but the table of an id differs. -/
structure Frame (id : String) (c d : Contents) : Prop where
  attributes : d.attributes = c.attributes
  snapshot : d.snapshot? = c.snapshot?
  tables : ∀ other, other ≠ id → d.table? other = c.table? other

theorem Frame.refl (id : String) (c : Contents) : Frame id c c := ⟨rfl, rfl, fun _ _ => rfl⟩

theorem Frame.trans {e : Contents} (h : Frame id c d) (h' : Frame id d e) : Frame id c e :=
  ⟨h'.attributes.trans h.attributes, h'.snapshot.trans h.snapshot,
    fun other ho => (h'.tables other ho).trans (h.tables other ho)⟩

theorem Frame.putTable (id : String) (c : Contents) (t : StoredTable) :
    Frame id c (c.putTable id t) :=
  ⟨rfl, rfl, fun other ho => by rw [table?_putTable, if_neg ho]⟩

/-- Nothing but the table of an id differs: it is dropped. -/
theorem Frame.erase (id : String) (c : Contents) :
    Frame id c { c with tables := Keyed.erase id c.tables } :=
  ⟨rfl, rfl, fun other ho => by
    rw [table?, Keyed.find?_erase, if_neg ho]
    rfl⟩

theorem changed?_create_eq_some {columns : Nat} {chunking : Chunking}
    (h : c.changed? (.create id columns chunking) = some d) :
    d = c.putTable id (StoredTable.empty columns chunking) := by
  replace h : (if _ then none else some _) = some d := h
  split at h
  · cases h
  · exact (Option.some.inj h).symm

theorem changed?_unlink_eq_some (h : c.changed? (.unlink id) = some d) :
    d = { c with tables := Keyed.erase id c.tables } := by
  replace h : (if _ then some _ else none) = some d := h
  split at h
  · exact (Option.some.inj h).symm
  · cases h

theorem changed?_edit_eq_some {edit : StoredTable.Edit} (h : c.changed? (.edit id edit) = some d) :
    ∃ t u, c.table? id = some t ∧ t.edit? edit = some u ∧ d = c.putTable id u := by
  obtain ⟨t, ht, h⟩ := Option.bind_eq_some_iff.1 h
  obtain ⟨u, hu, h⟩ := Option.bind_eq_some_iff.1 h
  exact ⟨t, u, ht, hu, (Option.some.inj h).symm⟩

end Contents

namespace Backend
open Contents
variable {b : Backend} {c d : Contents}

theorem apply_eq_ok {change : Change} (h : b.apply c change = .ok d) :
    c.changed? change = some d := by
  unfold apply at h
  split at h
  · cases h
  · split at h
    · cases h
    · next e he =>
      split at h
      · cases h
      · rw [he, Except.ok.inj h]

theorem tableOf_eq_ok {id : String} {t : StoredTable} (h : b.tableOf c id = .ok t) :
    c.table? id = some t := by
  unfold tableOf at h
  split at h
  · next ht => rw [ht, Except.ok.inj h]
  · cases h

/-- A change is made, or nothing is changed. -/
theorem change_ensures (b : Backend) (c : Contents) (change : Change) :
    (b.change change).Ensures c fun answer d =>
      match answer with
      | .ok () => c.changed? change = some d
      | .error _ => d = c := by
  refine Session.ensures_get_bind (Session.ensures_lift_bind (fun d hd => ?_) fun _ _ => rfl)
  exact apply_eq_ok hd

end Backend
end ArrayStore
