import ArrayStore.Proofs.DataSet.Coherence
import ArrayStore.Proofs.Storage.Snapshots
import ArrayStore.Proofs.Storage.Tables

/-!
# Stored rows are only added to

A store may break off anywhere: the library can fail any change.

* `StoredTable.Extends`, `Contents.Extends` : rows have only been added, behind those that were
  there;
* `Contents.Step`, `Contents.run` : stores of data sets and of snapshots, one after the other;
* `Contents.extends_run` : no run takes a stored row away or changes one, also when stores fail;
* `Backend.store_eq_ok` : what an accepted store leaves;
* `Backend.store_again` : storing again what is stored changes nothing;
* `Contents.Behind.storeArray`, `Contents.Behind.run` : while a measurement goes on, no store gets
  ahead of it;
* `Contents.shape_of_history` : and every accepted one leaves as many rows as have been measured.
-/

namespace ArrayStore
open Contents

/-! ## Rows are only added -/

/-- The rows of `t` are the first ones of `u`; nothing else differs. -/
structure StoredTable.Extends (t u : StoredTable) : Prop where
  chunking : u.chunking? = t.chunking?
  attributes : u.attributes = t.attributes
  shape : u.shape = t.shape ∨
    ∃ old new columns, old ≤ new ∧ t.shape = [old, columns] ∧ u.shape = [new, columns]
  samples : t.samples <+: u.samples

namespace StoredTable
variable {t u v : StoredTable}

theorem Extends.refl (t : StoredTable) : t.Extends t := ⟨rfl, rfl, Or.inl rfl, List.prefix_rfl⟩

theorem Extends.trans (h : t.Extends u) (h' : u.Extends v) : t.Extends v := by
  refine ⟨h'.chunking.trans h.chunking, h'.attributes.trans h.attributes, ?_,
    h.samples.trans h'.samples⟩
  rcases h'.shape with hsame | ⟨old', new', columns', hle', hu', hv'⟩
  · rw [hsame]
    exact h.shape
  · rcases h.shape with hsame | ⟨old, new, columns, hle, ht, hu⟩
    · exact Or.inr ⟨old', new', columns', hle', hsame ▸ hu', hv'⟩
    · rw [hu] at hu'
      cases hu'
      exact Or.inr ⟨old, new', columns', Nat.le_trans hle hle', ht, hv'⟩

theorem Reaches.extends {a : DataArray} (h : t.Reaches a u) : t.Extends u := by
  rcases h with rfl | ⟨more, hchunking, hattributes, ⟨rows, ht, hu⟩, hsamples⟩
  · exact Extends.refl u
  · exact ⟨hchunking, hattributes, Or.inr ⟨rows, _, a.width, Nat.le_max_left .., ht, hu⟩,
      hsamples ▸ List.prefix_append ..⟩

end StoredTable

/-- Rows have only been added to the tables, and a snapshot that was there has stayed. -/
structure Contents.Extends (c d : Contents) : Prop where
  attributes : d.attributes = c.attributes
  tables : ∀ id t, c.table? id = some t → ∃ u, d.table? id = some u ∧ t.Extends u
  snapshot : c.snapshot?.isSome = true → d.snapshot? = c.snapshot?

namespace Contents
variable {c d e : Contents}

theorem Extends.refl (c : Contents) : c.Extends c :=
  ⟨rfl, fun _ t ht => ⟨t, ht, StoredTable.Extends.refl t⟩, fun _ => rfl⟩

theorem Extends.trans (h : c.Extends d) (h' : d.Extends e) : c.Extends e := by
  refine ⟨h'.attributes.trans h.attributes, fun id t ht => ?_, fun hs => ?_⟩
  · obtain ⟨u, hu, htu⟩ := h.tables id t ht
    obtain ⟨v, hv, huv⟩ := h'.tables id u hu
    exact ⟨v, hv, htu.trans huv⟩
  · have hd := h.snapshot hs
    rw [← hd] at hs ⊢
    exact h'.snapshot hs

theorem Frame.extends {id : String} (h : Frame id c d)
    (ht : ∀ t, c.table? id = some t → ∃ u, d.table? id = some u ∧ t.Extends u) : c.Extends d := by
  refine ⟨h.attributes, fun other t ho => ?_, fun _ => h.snapshot⟩
  by_cases heq : other = id
  · subst heq
    exact ht t ho
  · exact ⟨t, (h.tables other heq).trans ho, StoredTable.Extends.refl t⟩

/-- A store of the arrays of a data set, or of a snapshot in the container at a path. -/
inductive Step where
  | store (b : Backend) (chunking : Chunking) (s : DataSet)
  | snapshot (b : Backend) (path : String) (values : Snapshot)

def Step.session : Step → Session Contents Unit
  | .store b chunking s => b.store chunking s false
  | .snapshot b path values => b.storeSnapshot path values

/-- The contents after a sequence of stores, accepted or not. -/
def run (c : Contents) (steps : List Step) : Contents :=
  steps.foldl (fun c step => (step.session.outcome c).2) c

end Contents

namespace Backend
variable {b : Backend} {chunking : Chunking} {s : DataSet} {c d : Contents}

theorem store_extends (b : Backend) (chunking : Chunking) (s : DataSet) (c : Contents) :
    (b.store chunking s false).Ensures c fun _ d => c.Extends d := by
  refine Session.ensures_get_bind (Session.ensures_lift_bind (fun single _ => ?_)
    fun _ _ => Extends.refl c)
  split
  · exact Extends.refl c
  · refine Session.ensures_forM (fun a _ d hd => ?_) (Extends.refl c)
    refine (b.storeArray_ensures chunking s false a d).mono fun _ e h => ?_
    obtain ⟨hframe, hkept, -, -⟩ := h
    refine hd.trans (hframe.extends fun t ht => ?_)
    obtain ⟨u, hu, hreach⟩ := hkept rfl t ht
    exact ⟨u, hu, hreach.extends⟩

theorem storeSnapshot_extends (b : Backend) (path : String) (values : Snapshot) (c : Contents) :
    (b.storeSnapshot path values).Ensures c fun _ d => c.Extends d := by
  refine (b.storeSnapshot_ensures path values c).mono fun _ d h => ?_
  obtain ⟨hsame, hpresent, -⟩ := h
  refine ⟨hsame.attributes, fun id t ht => ⟨t, ?_, StoredTable.Extends.refl t⟩, fun hs => ?_⟩
  · rwa [table?, hsame.tables]
  · rw [(hpresent hs).2]

end Backend

/-- Through any sequence of stores, accepted or not, and wherever they broke off: every table keeps
its columns, its attributes and its rows, and new rows stand behind the old ones; a snapshot that
has been begun is never touched again. -/
theorem Contents.extends_run (c : Contents) (steps : List Step) : c.Extends (c.run steps) := by
  induction steps generalizing c with
  | nil => exact Extends.refl c
  | cons step steps ih =>
    refine Extends.trans ?_ (ih (step.session.outcome c).2)
    cases step with
    | store b chunking s => exact b.store_extends chunking s c
    | snapshot b path values => exact b.storeSnapshot_extends path values c

/-! ## Accepted stores -/

namespace Backend
variable {b : Backend} {chunking : Chunking} {s : DataSet} {force : Bool} {c d : Contents}

/-- The table of an array has got its measured rows. -/
def Stored (chunking : Chunking) (s : DataSet) (force : Bool) (c d : Contents) (a : DataArray) :
    Prop :=
  ∃ u rows, d.table? a.id = some u ∧ (c.baseTable chunking s force a).shape = [rows, a.width] ∧
    (c.baseTable chunking s force a).Grown a (a.measuredFrom rows) u

theorem storeArrays_ensures (b : Backend) (chunking : Chunking) (s : DataSet) (force : Bool)
    (arrays : List DataArray) (hn : (arrays.map DataArray.id).Nodup) (c : Contents) :
    (arrays.forM (b.storeArray chunking s force)).Ensures c fun answer d =>
      answer = .ok () → d.attributes = c.attributes ∧ d.snapshot? = c.snapshot? ∧
        (∀ id ∉ arrays.map DataArray.id, d.table? id = c.table? id) ∧
        ∀ a ∈ arrays, Stored chunking s force c d a := by
  induction arrays generalizing c with
  | nil => exact fun _ => ⟨rfl, rfl, fun _ _ => rfl, fun a ha => by cases ha⟩
  | cons a arrays ih =>
    obtain ⟨hnew, hn⟩ := List.nodup_cons.1 hn
    refine (b.storeArray_ensures chunking s force a c).bind (fun _ d h => ?_)
      fun _ _ _ h => by cases h
    obtain ⟨hframe, -, -, hstored⟩ := h
    refine (ih hn d).mono fun answer e h hok => ?_
    obtain ⟨hattributes, hsnapshot, hother, hall⟩ := h hok
    refine ⟨hattributes.trans hframe.attributes, hsnapshot.trans hframe.snapshot,
      fun id hid => ?_, List.forall_mem_cons.2 ⟨?_, fun a' ha' => ?_⟩⟩
    · obtain ⟨hne, hid⟩ := not_or.1 (mt List.mem_cons.2 hid)
      exact (hother id hid).trans (hframe.tables id hne)
    · obtain ⟨u, rows, hu, hshape, hgrown⟩ := hstored rfl
      exact ⟨u, rows, (hother a.id hnew).trans hu, hshape, hgrown⟩
    · obtain ⟨u, rows, hu, hgrown⟩ := hall a' ha'
      have hne : a'.id ≠ a.id := fun he => hnew (he ▸ List.mem_map_of_mem ha')
      have hbase : d.baseTable chunking s force a' = c.baseTable chunking s force a' := by
        rw [baseTable, baseTable, hframe.tables a'.id hne]
      exact ⟨u, rows, hu, hbase ▸ hgrown⟩

/-- An accepted store adds the measured rows of every array to its table, which is new if there was
none or if it was to be replaced. All other tables stay as they are. -/
theorem store_eq_ok (hn : (s.arrays.map DataArray.id).Nodup)
    (h : (b.store chunking s force).outcome c = (.ok (), d)) :
    d.attributes = c.attributes ∧ d.snapshot? = c.snapshot? ∧
      (∀ id ∉ s.arrays.map DataArray.id, d.table? id = c.table? id) ∧
      ∀ a ∈ s.arrays, Stored chunking s force c d a := by
  have hensures : (b.store chunking s force).Ensures c fun answer d =>
      answer = .ok () → d.attributes = c.attributes ∧ d.snapshot? = c.snapshot? ∧
        (∀ id ∉ s.arrays.map DataArray.id, d.table? id = c.table? id) ∧
        ∀ a ∈ s.arrays, Stored chunking s force c d a := by
    refine Session.ensures_get_bind (Session.ensures_lift_bind (fun single _ => ?_)
      fun _ _ h => by cases h)
    split
    · exact fun h => by cases h
    · exact b.storeArrays_ensures chunking s force s.arrays hn c
  rw [Session.Ensures, h] at hensures
  exact hensures rfl

/-! ## Storing again -/

theorem holdsSingleTable_of_unmarked (b : Backend)
    (h : c.attributes.lookup Container.layoutAttribute = none) :
    b.holdsSingleTable c = .ok false := by
  have htag : b.readText c.attributes Container.layoutAttribute = .ok none := by
    rw [readText, h]
  rw [holdsSingleTable, htag]
  rfl

/-- An array without new rows is left as it is. -/
theorem storeArray_of_le (b : Backend) (chunking : Chunking) (s : DataSet) {a : DataArray}
    {t : StoredTable} {rows : Nat} (ht : c.table? a.id = some t)
    (hshape : t.shape = [rows, a.width]) (hle : a.measuredRows ≤ rows) :
    (b.storeArray chunking s false a).outcome c = (.ok (), c) := by
  rw [storeArray, Session.outcome_bind, outcome_prepareTable ht]
  dsimp only
  rw [b.outcome_appendRows ht hshape, if_neg (not_not.2 rfl), if_pos hle]

theorem store_of_le (b : Backend) (chunking : Chunking)
    (hmark : c.attributes.lookup Container.layoutAttribute = none)
    (h : ∀ a ∈ s.arrays, ∃ t rows, c.table? a.id = some t ∧ t.shape = [rows, a.width] ∧
      a.measuredRows ≤ rows) :
    (b.store chunking s false).outcome c = (.ok (), c) := by
  have hall : (s.arrays.forM (b.storeArray chunking s false)).outcome c = (.ok (), c) := by
    generalize s.arrays = arrays at h
    induction arrays with
    | nil => rfl
    | cons a arrays ih =>
      obtain ⟨⟨t, rows, ht, hshape, hle⟩, h⟩ := List.forall_mem_cons.1 h
      refine (Session.outcome_bind _ _ c).trans ?_
      rw [b.storeArray_of_le chunking s ht hshape hle]
      exact ih h
  rw [store, Session.outcome_get_bind, Session.outcome_bind, Session.outcome_lift,
    b.holdsSingleTable_of_unmarked hmark]
  exact hall

/-- Storing a data set again adds nothing, by whatever library. -/
theorem store_again (hn : (s.arrays.map DataArray.id).Nodup)
    (hmark : c.attributes.lookup Container.layoutAttribute = none)
    (h : (b.store chunking s force).outcome c = (.ok (), d)) (b' : Backend)
    (chunking' : Chunking) : (b'.store chunking' s false).outcome d = (.ok (), d) := by
  obtain ⟨hattributes, -, -, hstored⟩ := store_eq_ok hn h
  refine b'.store_of_le chunking' (hattributes ▸ hmark) fun a ha => ?_
  obtain ⟨u, rows, hu, -, hgrown⟩ := hstored a ha
  obtain ⟨old, -, hshape⟩ := hgrown.shape
  exact ⟨u, _, hu, hshape, Nat.le_max_right ..⟩

end Backend

/-! ## A measurement that goes on -/

/-- The arrays stay, and measured rows only become more. -/
def DataSet.GoesOn (s t : DataSet) : Prop :=
  ∀ a ∈ s.arrays, ∃ a' ∈ t.arrays, a'.id = a.id ∧ a'.width = a.width ∧
    a.measuredRows ≤ a'.measuredRows

namespace Contents
variable {b : Backend} {chunking : Chunking} {c : Contents} {s t : DataSet}

/-- Every table is that of an array, and has no more rows than have been measured. -/
def Behind (c : Contents) (s : DataSet) : Prop :=
  ∀ id t, c.table? id = some t → ∃ a ∈ s.arrays, a.id = id ∧
    ∃ rows ≤ a.measuredRows, t.shape = [rows, a.width]

theorem Behind.goesOn (hc : c.Behind s) (h : s.GoesOn t) : c.Behind t := by
  intro id table ht
  obtain ⟨a, ha, rfl, rows, hle, hshape⟩ := hc id table ht
  obtain ⟨a', ha', hid, hwidth, hmore⟩ := h a ha
  exact ⟨a', ha', hid, rows, Nat.le_trans hle hmore, hwidth ▸ hshape⟩

theorem Behind.reaches {a : DataArray} {t u : StoredTable} {rows : Nat}
    (hle : rows ≤ a.measuredRows) (hshape : t.shape = [rows, a.width]) (h : t.Reaches a u) :
    ∃ rows ≤ a.measuredRows, u.shape = [rows, a.width] := by
  rcases h with rfl | ⟨more, hgrown⟩
  · exact ⟨rows, hle, hshape⟩
  · obtain ⟨old, hold, hnew⟩ := hgrown.shape
    rw [hshape] at hold
    cases hold
    exact ⟨_, Nat.max_le.2 ⟨hle, Nat.le_refl _⟩, hnew⟩

/-- Storing an array does not get ahead of its measurement. -/
theorem Behind.storeArray {a : DataArray} (hn : (s.arrays.map DataArray.id).Nodup)
    (ha : a ∈ s.arrays) (hc : c.Behind s) :
    (b.storeArray chunking s false a).Ensures c fun _ d => d.Behind s := by
  refine (b.storeArray_ensures chunking s false a c).mono fun _ d h => ?_
  obtain ⟨hframe, hkept, hnew, -⟩ := h
  intro id u hu
  by_cases hid : id = a.id
  · subst hid
    refine ⟨a, ha, rfl, ?_⟩
    cases ht : c.table? a.id with
    | none =>
      obtain ⟨t, hshape, hreach⟩ := hnew ht u hu
      exact Behind.reaches (Nat.zero_le _) hshape hreach
    | some t =>
      obtain ⟨u', hu', hreach⟩ := hkept rfl t ht
      rw [hu] at hu'
      cases hu'
      obtain ⟨a', ha', hid, rows, hle, hshape⟩ := hc a.id t ht
      cases List.inj_on_of_nodup_map hn ha' ha hid
      exact Behind.reaches hle hshape hreach
  · rw [hframe.tables id hid] at hu
    exact hc id u hu

/-- The table that rows are added to has no more rows than have been measured. -/
theorem Behind.rows_le {a : DataArray} {rows : Nat} (hn : (s.arrays.map DataArray.id).Nodup)
    (ha : a ∈ s.arrays) (hc : c.Behind s)
    (hshape : (c.baseTable chunking s false a).shape = [rows, a.width]) :
    rows ≤ a.measuredRows := by
  rw [baseTable, if_neg Bool.false_ne_true] at hshape
  cases ht : c.table? a.id with
  | none =>
    rw [ht] at hshape
    cases hshape
    exact Nat.zero_le _
  | some t =>
    rw [ht, Option.getD_some] at hshape
    obtain ⟨a', ha', hid, rows', hle, hshape'⟩ := hc a.id t ht
    cases List.inj_on_of_nodup_map hn ha' ha hid
    rw [hshape] at hshape'
    cases hshape'
    exact hle

/-- No store gets ahead of the measurement. -/
theorem Behind.store (hn : (s.arrays.map DataArray.id).Nodup) (hc : c.Behind s) :
    (b.store chunking s false).Ensures c fun _ d => d.Behind s := by
  refine Session.ensures_get_bind (Session.ensures_lift_bind (fun single _ => ?_) fun _ _ => hc)
  split
  · exact hc
  · exact Session.ensures_forM (fun a ha d hd => hd.storeArray hn ha) hc

/-- An accepted store catches up with the measurement. -/
theorem Behind.shape_of_store {d : Contents} (hn : (s.arrays.map DataArray.id).Nodup)
    (hc : c.Behind s) (h : (b.store chunking s false).outcome c = (.ok (), d)) :
    ∀ a ∈ s.arrays, ∃ u, d.table? a.id = some u ∧ u.shape = [a.measuredRows, a.width] := by
  intro a ha
  obtain ⟨-, -, -, hstored⟩ := Backend.store_eq_ok hn h
  obtain ⟨u, rows, hu, hshape, hgrown⟩ := hstored a ha
  obtain ⟨old, hold, hnew⟩ := hgrown.shape
  rw [hshape] at hold
  cases hold
  rw [Nat.max_eq_right (hc.rows_le hn ha hshape)] at hnew
  exact ⟨u, hu, hnew⟩

/-- While a measurement goes on, no run of stores gets ahead of it. -/
theorem Behind.run {history : List (Backend × DataSet)} {first : DataSet} (hc : c.Behind first)
    (hchain : (first :: (history.map Prod.snd ++ [s])).IsChain DataSet.GoesOn)
    (hn : ∀ t ∈ history.map Prod.snd, (t.arrays.map DataArray.id).Nodup) :
    (run c (history.map fun entry => .store entry.1 chunking entry.2)).Behind s := by
  induction history generalizing c first with
  | nil => exact hc.goesOn (List.isChain_cons_cons.1 hchain).1
  | cons entry history ih =>
    obtain ⟨hnext, hchain⟩ := List.isChain_cons_cons.1 hchain
    obtain ⟨hentry, hn⟩ := List.forall_mem_cons.1 hn
    exact ih (Behind.store hentry (hc.goesOn hnext)) hchain hn

/-- While a measurement goes on, its data set is stored again and again, into a container without
arrays at first. Whenever a store is accepted, every table has as many rows as have been measured,
also if stores before it broke off. -/
theorem shape_of_history (chunking : Chunking) (history : List (Backend × DataSet)) (b : Backend)
    (s : DataSet) (hchain : (history.map Prod.snd ++ [s]).IsChain DataSet.GoesOn)
    (hn : ∀ t ∈ history.map Prod.snd ++ [s], (t.arrays.map DataArray.id).Nodup)
    (hok : ((b.store chunking s false).outcome
      (run {} (history.map fun entry => .store entry.1 chunking entry.2))).1 = .ok ()) :
    ∀ a ∈ s.arrays, ∃ u,
      ((b.store chunking s false).outcome
        (run {} (history.map fun entry => .store entry.1 chunking entry.2))).2.table? a.id =
          some u ∧ u.shape = [a.measuredRows, a.width] := by
  have hempty : ({} : Contents).Behind {} := fun id t ht => by cases ht
  have hstart : (({} : DataSet) :: (history.map Prod.snd ++ [s])).IsChain DataSet.GoesOn := by
    cases hsets : history.map Prod.snd ++ [s] with
    | nil => exact .singleton _
    | cons t rest => exact List.isChain_cons_cons.2 ⟨fun _ ha => (by cases ha), hsets ▸ hchain⟩
  obtain ⟨hhistory, hlast⟩ := List.forall_mem_append.1 hn
  exact Behind.shape_of_store (hlast s (List.mem_singleton_self s))
    (hempty.run hstart hhistory) (Prod.ext hok rfl)

end Contents
end ArrayStore
