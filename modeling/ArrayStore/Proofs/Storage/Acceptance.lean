import ArrayStore.Proofs.Storage.Appending

/-!
# Which stores are accepted

A library that makes every change that can be made still refuses an array with other columns than
its table.

* `Backend.NeverFails` : such a library;
* `Backend.refusal?` : why it refuses an array;
* `Backend.store_outcome` : it stores the arrays up to the first one that is refused, and reports
  why;
* `Backend.store_forced` : it accepts every store that replaces the tables.
-/

namespace ArrayStore
open Contents

/-- The library stores every text, and makes every change that can be made. -/
structure Backend.NeverFails (b : Backend) : Prop where
  text : ∀ bytes, b.unstorable? bytes = none
  change : ∀ c change, b.failure? c change = none

namespace Backend
variable {b : Backend} {chunking : Chunking} {s : DataSet} {a : DataArray} {c d : Contents}

theorem change_of_neverFails (hb : b.NeverFails) {change : Change}
    (h : c.changed? change = some d) : (b.change change).outcome c = (.ok (), d) := by
  have htexts : change.texts.findSome? b.unstorable? = none :=
    List.findSome?_eq_none_iff.2 fun bytes _ => hb.text bytes
  have happly : b.apply c change = .ok d := by
    rw [apply, htexts, h]
    dsimp only
    rw [hb.change]
  rw [Backend.change, Session.outcome_get_bind, Session.outcome_bind, Session.outcome_lift, happly]
  rfl

theorem changed?_edit {id : String} {t u : StoredTable} (edit : StoredTable.Edit)
    (ht : c.table? id = some t) (hu : t.edit? edit = some u) :
    c.changed? (.edit id edit) = some (c.putTable id u) := by
  show ((c.table? id).bind fun t => (t.edit? edit).bind fun u => some (c.putTable id u)) = _
  rw [ht, Option.bind_some, hu, Option.bind_some]

/-! ## The parts of storing an array -/

/-- Attributes with new and distinct names are given. -/
theorem tags_of_neverFails (hb : b.NeverFails) {id : String} {entries : List (String × Attribute)}
    {t : StoredTable} (ht : c.table? id = some t)
    (hnew : ∀ entry ∈ entries, t.attributes.lookup entry.1 = none)
    (hn : (entries.map Prod.fst).Nodup) :
    ∃ d, (entries.forM (b.tag id)).outcome c = (.ok (), d) := by
  induction entries generalizing c t with
  | nil => exact ⟨c, rfl⟩
  | cons entry entries ih =>
    obtain ⟨hentry, hnew⟩ := List.forall_mem_cons.1 hnew
    obtain ⟨hother, hn⟩ := List.nodup_cons.1 hn
    have hu : t.tag? entry.1 entry.2.encode = some (t.tagged [entry]) := by
      rw [StoredTable.tag?, hentry]
      rfl
    have hd : (c.putTable id (t.tagged [entry])).table? id = some (t.tagged [entry]) := by
      rw [table?_putTable, if_pos rfl]
    obtain ⟨d, hrest⟩ := ih hd (fun e he => by
      have hne : e.1 ≠ entry.1 := fun heq => hother (heq ▸ List.mem_map_of_mem he)
      show (t.attributes ++ [(entry.1, _)]).lookup e.1 = none
      rw [List.lookup_append, hnew e he, List.lookup_cons, beq_false_of_ne hne]
      rfl) hn
    refine ⟨d, (Session.outcome_bind _ _ c).trans ?_⟩
    rw [tag, change_of_neverFails hb (changed?_edit (.tag _ _) ht hu)]
    exact hrest

theorem nodup_attributesOf (s : DataSet) (a : DataArray) :
    ((attributesOf s a).map Prod.fst).Nodup := by
  unfold attributesOf
  cases a.isSetpoint with
  | false =>
    show ["label", "name", "units", "is_setpoint", "set_arrays"].Nodup
    decide
  | true =>
    show ["label", "name", "units", "is_setpoint"].Nodup
    decide

theorem createTable_of_neverFails (hb : b.NeverFails) (chunking : Chunking) (s : DataSet)
    (hnone : c.table? a.id = none) :
    ∃ d, (b.createTable chunking s a).outcome c = (.ok (), d) := by
  have hcreate : c.changed? (.create a.id a.width chunking) =
      some (c.putTable a.id (StoredTable.empty a.width chunking)) := by
    show (if (c.table? a.id).isSome then none else some _) = _
    rw [hnone]
    rfl
  have ht : (c.putTable a.id (StoredTable.empty a.width chunking)).table? a.id =
      some (StoredTable.empty a.width chunking) := by
    rw [table?_putTable, if_pos rfl]
  obtain ⟨d, hd⟩ := tags_of_neverFails hb ht (fun _ _ => rfl) (nodup_attributesOf s a)
  refine ⟨d, ?_⟩
  rw [createTable, Session.outcome_bind, change_of_neverFails hb hcreate]
  exact hd

theorem exists_grow? {t : StoredTable} {rows columns : Nat} (hshape : t.shape = [rows, columns])
    (hgrows : t.chunking?.isSome = true) (count : Nat) :
    ∃ u, t.grow? count = some u ∧ u.shape = [count, columns] := by
  obtain ⟨chunking, hchunking⟩ := Option.isSome_iff_exists.1 hgrows
  unfold StoredTable.grow?
  split
  · next hshape' =>
    rw [hshape] at hshape'
    cases hshape'
    exact ⟨_, rfl, rfl⟩
  · next hno => exact (hno chunking rows columns hchunking hshape).elim

theorem exists_put? {t : StoredTable} {rows columns first : Nat} {samples : List Double}
    (hshape : t.shape = [rows, columns])
    (hroom : first * columns + samples.length ≤ rows * columns) :
    ∃ u, t.put? first samples = some u := by
  have hlength := StoredTable.length_samples hshape
  unfold StoredTable.put?
  split
  · next hshape' =>
    rw [hshape] at hshape'
    cases hshape'
    dsimp only
    rw [dif_pos (hlength ▸ hroom)]
    exact ⟨_, rfl⟩
  · next hno => exact (hno rows columns hshape).elim

/-! ## One array -/

/-- Why an array is refused, although the library never fails. -/
def refusal? (b : Backend) (c : Contents) (a : DataArray) : Option StoreError :=
  match c.table? a.id with
  | none => none
  | some t =>
    match t.extents a.id with
    | .error e => some e
    | .ok (rows, columns) =>
      if columns ≠ a.width then some (columnsDiffer a.id a.width columns)
      else if a.measuredRows ≤ rows ∨ t.chunking?.isSome = true then none
      else some (b.unmet (.change (.edit a.id (.grow a.measuredRows))))

/-- A table that can grow gets the rows of an array with its columns. -/
theorem appendRows_of_neverFails (hb : b.NeverFails) {t : StoredTable} {rows : Nat}
    (ht : c.table? a.id = some t) (hshape : t.shape = [rows, a.width])
    (hgrows : t.chunking?.isSome = true) :
    ∃ d, (b.appendRows a).outcome c = (.ok (), d) := by
  rw [b.outcome_appendRows ht hshape, if_neg (not_not.2 rfl)]
  split
  · exact ⟨c, rfl⟩
  · next hlt =>
    have hle : rows ≤ a.measuredRows := Nat.le_of_not_le hlt
    obtain ⟨u, hu, hushape⟩ := exists_grow? hshape hgrows a.measuredRows
    have hroom : rows * a.width + (a.measuredFrom rows).length ≤ a.measuredRows * a.width := by
      rw [a.length_measuredFrom, ← Nat.add_mul, Nat.add_sub_cancel' hle]
    obtain ⟨v, hv⟩ := exists_put? hushape hroom
    have hd : (c.putTable a.id u).table? a.id = some u := by
      rw [table?_putTable, if_pos rfl]
    rw [Session.outcome_bind, change_of_neverFails hb (changed?_edit (.grow _) ht hu)]
    exact ⟨_, change_of_neverFails hb (changed?_edit (.put _ _) hd hv)⟩

theorem prepareTable_of_neverFails (hb : b.NeverFails) (chunking : Chunking) (s : DataSet)
    (force : Bool) (a : DataArray) (c : Contents) :
    ∃ d, (b.prepareTable chunking s force a).outcome c = (.ok (), d) := by
  rw [prepareTable, Session.outcome_get_bind]
  cases ht : c.table? a.id with
  | none => exact createTable_of_neverFails hb chunking s ht
  | some t =>
    cases force with
    | false => exact ⟨c, rfl⟩
    | true =>
      have hunlink : c.changed? (.unlink a.id) =
          some { c with tables := Keyed.erase a.id c.tables } := by
        show (if (c.table? a.id).isSome then some _ else none) = _
        rw [ht]
        rfl
      have hnone : ({ c with tables := Keyed.erase a.id c.tables } : Contents).table? a.id =
          none := by
        rw [table?, Keyed.find?_erase, if_pos rfl]
      obtain ⟨d, hd⟩ := createTable_of_neverFails hb chunking s hnone
      refine ⟨d, (Session.outcome_bind _ _ c).trans ?_⟩
      rw [change_of_neverFails hb hunlink]
      exact hd

/-- Rows are added to a table that has just been prepared, unless it is there with other columns or
cannot grow. -/
theorem storeArray_of_baseTable (hb : b.NeverFails) {force : Bool} {rows : Nat}
    (hshape : (c.baseTable chunking s force a).shape = [rows, a.width])
    (hgrows : (c.baseTable chunking s force a).chunking?.isSome = true) :
    ∃ d, (b.storeArray chunking s force a).outcome c = (.ok (), d) := by
  obtain ⟨d, hd⟩ := prepareTable_of_neverFails hb chunking s force a c
  have hbase := b.prepareTable_ensures chunking s force a c
  rw [Session.Ensures, hd] at hbase
  rw [storeArray, Session.outcome_bind, hd]
  exact appendRows_of_neverFails hb (hbase.2.2.2 rfl) hshape hgrows

theorem storeArray_of_refusal?_eq_none (hb : b.NeverFails) (chunking : Chunking) (s : DataSet)
    (h : b.refusal? c a = none) :
    ∃ d, (b.storeArray chunking s false a).outcome c = (.ok (), d) := by
  unfold refusal? at h
  cases ht : c.table? a.id with
  | none =>
    have hbase : c.baseTable chunking s false a = StoredTable.fresh chunking s a := by
      rw [baseTable, ht]
      rfl
    have hshape : (c.baseTable chunking s false a).shape = [0, a.width] := by
      rw [hbase]
      rfl
    exact storeArray_of_baseTable hb hshape (hbase ▸ rfl)
  | some t =>
    have hbase : c.baseTable chunking s false a = t := by
      rw [baseTable, ht]
      rfl
    rw [ht] at h
    dsimp only at h
    split at h
    · cases h
    · next rows columns hextents =>
      have hshape := extents_eq_ok hextents
      split at h
      · cases h
      · next hcolumns =>
        cases not_not.1 hcolumns
        split at h
        · next hfits =>
          rcases hfits with hle | hgrows
          · exact ⟨c, b.storeArray_of_le chunking s ht hshape hle⟩
          · exact storeArray_of_baseTable hb (hbase ▸ hshape) (hbase ▸ hgrows)
        · cases h

/-- A table of a fixed size does not grow. -/
theorem change_grow_of_fixed {id : String} {t : StoredTable} {rows : Nat}
    (ht : c.table? id = some t) (hfixed : t.chunking? = none) :
    (b.change (.edit id (.grow rows))).outcome c =
      (.error (b.unmet (.change (.edit id (.grow rows)))), c) := by
  have hgrow : t.grow? rows = none := by
    rw [StoredTable.grow?, hfixed]
  have hchanged : c.changed? (.edit id (.grow rows)) = none := by
    show ((c.table? id).bind fun t => (t.grow? rows).bind fun u => some (c.putTable id u)) = none
    rw [ht, Option.bind_some, hgrow, Option.bind_none]
  have htexts : (Change.edit id (.grow rows)).texts = [] := rfl
  have hunmet : b.apply c (.edit id (.grow rows)) =
      .error (b.unmet (.change (.edit id (.grow rows)))) := by
    rw [apply, htexts, List.findSome?_nil, hchanged]
  rw [Backend.change, Session.outcome_get_bind, Session.outcome_bind, Session.outcome_lift, hunmet]

/-- A refused array leaves the container as it is. -/
theorem storeArray_of_refusal?_eq_some (b : Backend) (chunking : Chunking) (s : DataSet)
    {e : StoreError} (h : b.refusal? c a = some e) :
    (b.storeArray chunking s false a).outcome c = (.error e, c) := by
  unfold refusal? at h
  cases ht : c.table? a.id with
  | none =>
    rw [ht] at h
    cases h
  | some t =>
    rw [ht] at h
    rw [storeArray, Session.outcome_bind, outcome_prepareTable ht]
    dsimp only at h ⊢
    split at h
    · next fault hextents =>
      cases h
      have htable : b.tableOf c a.id = .ok t := by
        rw [tableOf, ht]
      rw [appendRows, Session.outcome_get_bind, Session.outcome_bind, Session.outcome_lift, htable]
      dsimp only
      rw [Session.outcome_bind, Session.outcome_lift, hextents]
    · next rows columns hextents =>
      rw [b.outcome_appendRows ht (extents_eq_ok hextents)]
      split at h
      · next hcolumns =>
        cases h
        rw [if_pos hcolumns]
      · next hcolumns =>
        split at h
        · cases h
        · next hfits =>
          cases h
          obtain ⟨hlt, hfixed⟩ := not_or.1 hfits
          rw [if_neg hcolumns, if_neg hlt, Session.outcome_bind,
            change_grow_of_fixed ht (Option.not_isSome_iff_eq_none.1 hfixed)]

/-! ## Data sets -/

theorem outcome_forM_append {arrays : List DataArray} {f : DataArray → Session Contents Unit}
    (h : (arrays.forM f).outcome c = (.ok (), d)) (rest : List DataArray) :
    ((arrays ++ rest).forM f).outcome c = (rest.forM f).outcome d := by
  induction arrays generalizing c with
  | nil =>
    cases h
    rfl
  | cons a arrays ih =>
    have hcons := (Session.outcome_bind (f a) (fun _ => arrays.forM f) c).symm.trans h
    refine (Session.outcome_bind (f a) (fun _ => (arrays ++ rest).forM f) c).trans ?_
    rcases ha : (f a).outcome c with ⟨e | _, d'⟩
    · rw [ha] at hcons
      cases hcons
    · rw [ha] at hcons
      exact ih hcons

theorem storeArrays_of_refusal?_eq_none (hb : b.NeverFails) (chunking : Chunking) (s : DataSet)
    {arrays : List DataArray} (hn : (arrays.map DataArray.id).Nodup)
    (h : ∀ a ∈ arrays, b.refusal? c a = none) :
    ∃ d, (arrays.forM (b.storeArray chunking s false)).outcome c = (.ok (), d) := by
  induction arrays generalizing c with
  | nil => exact ⟨c, rfl⟩
  | cons a arrays ih =>
    obtain ⟨hnew, hn⟩ := List.nodup_cons.1 hn
    obtain ⟨ha, h⟩ := List.forall_mem_cons.1 h
    obtain ⟨d, hd⟩ := storeArray_of_refusal?_eq_none hb chunking s ha
    have hframe := (b.storeArray_ensures chunking s false a c).1
    rw [hd] at hframe
    obtain ⟨e, he⟩ := ih hn fun x hx => by
      have hne : x.id ≠ a.id := fun heq => hnew (heq ▸ List.mem_map_of_mem hx)
      rw [refusal?, hframe.tables x.id hne]
      exact h x hx
    refine ⟨e, (Session.outcome_bind _ _ c).trans ?_⟩
    rw [hd]
    exact he

theorem outcome_store (b : Backend) (chunking : Chunking) (s : DataSet) (force : Bool)
    (hmark : c.attributes.lookup Container.layoutAttribute = none) :
    (b.store chunking s force).outcome c =
      (s.arrays.forM (b.storeArray chunking s force)).outcome c := by
  rw [store, Session.outcome_get_bind, Session.outcome_bind, Session.outcome_lift,
    b.holdsSingleTable_of_unmarked hmark]
  rfl

/-- A library that never fails stores the arrays in turn up to the first one that it refuses, and
reports why. Those before are stored, and nothing else is changed. So a data set is accepted unless
an array has other columns than its table, or new rows for one that cannot grow. -/
theorem store_outcome (hb : b.NeverFails) (hn : (s.arrays.map DataArray.id).Nodup)
    (hmark : c.attributes.lookup Container.layoutAttribute = none) :
    ((∀ a ∈ s.arrays, b.refusal? c a = none) →
        ∃ d, (b.store chunking s false).outcome c = (.ok (), d)) ∧
      ∀ before a after e, s.arrays = before ++ a :: after →
        (∀ x ∈ before, b.refusal? c x = none) → b.refusal? c a = some e →
          ∃ d, (b.store chunking s false).outcome c = (.error e, d) ∧
            (∀ x ∈ before, Stored chunking s false c d x) ∧
            ∀ id ∉ before.map DataArray.id, d.table? id = c.table? id := by
  rw [b.outcome_store chunking s false hmark]
  refine ⟨storeArrays_of_refusal?_eq_none hb chunking s hn, ?_⟩
  intro before a after e harrays hbefore ha
  rw [harrays, List.map_append] at hn
  have hnbefore := (List.nodup_append.1 hn).1
  obtain ⟨d, hd⟩ := storeArrays_of_refusal?_eq_none hb chunking s hnbefore hbefore
  have hensures := b.storeArrays_ensures chunking s false before hnbefore c
  rw [Session.Ensures, hd] at hensures
  obtain ⟨-, -, hother, hstored⟩ := hensures rfl
  refine ⟨d, ?_, hstored, hother⟩
  have hnot : a.id ∉ before.map DataArray.id := fun hm =>
    (List.nodup_append.1 hn).2.2 a.id hm a.id (List.mem_map_of_mem (List.mem_cons_self ..)) rfl
  have ha' : b.refusal? d a = some e := by
    rw [refusal?, hother a.id hnot]
    exact ha
  rw [harrays, outcome_forM_append hd]
  refine (Session.outcome_bind _ _ d).trans ?_
  rw [b.storeArray_of_refusal?_eq_some chunking s ha']

/-- Every store that replaces the tables is accepted by a library that never fails. -/
theorem store_forced (hb : b.NeverFails) (chunking : Chunking) (s : DataSet)
    (hmark : c.attributes.lookup Container.layoutAttribute = none) :
    ∃ d, (b.store chunking s true).outcome c = (.ok (), d) := by
  rw [b.outcome_store chunking s true hmark]
  clear hmark
  generalize s.arrays = arrays
  induction arrays generalizing c with
  | nil => exact ⟨c, rfl⟩
  | cons a arrays ih =>
    have hshape : (c.baseTable chunking s true a).shape = [0, a.width] := rfl
    obtain ⟨d, hd⟩ := storeArray_of_baseTable hb hshape rfl
    obtain ⟨e, he⟩ := @ih d
    refine ⟨e, (Session.outcome_bind _ _ c).trans ?_⟩
    rw [hd]
    exact he

end Backend
end ArrayStore
