import ArrayStore.Proofs.Attribute
import ArrayStore.Proofs.DataArray.StoredUnits
import ArrayStore.Proofs.DataSet.Assembly
import ArrayStore.Proofs.Storage.Appending

/-!
# Reading back what has been stored

* `Session.Keeps`, `Backend.keeps_store` : what every change of a container keeps, a store keeps;
* `DataArray.reloaded`, `DataSet.reloaded` : an array as it comes back, and with the ids of its set
  arrays; `Backend.readArray_of_grown` : it comes back from its table;
* `Backend.outcome_loadTables` : tables that are read are added and linked;
* `Backend.load_store` : a stored data set comes back, in the order of the ids.
-/

namespace ArrayStore
open Contents

/-! ## Invariants of the contents -/

/-- Whatever is answered, the session keeps this. -/
def Session.Keeps {σ α : Type} (keeps : σ → Prop) (m : Session σ α) : Prop :=
  ∀ s, keeps s → m.Ensures s fun _ t => keeps t

/-- Every change that can be made keeps this. -/
def Contents.ChangesKeep (keeps : Contents → Prop) : Prop :=
  ∀ c d change, keeps c → c.changed? change = some d → keeps d

namespace Backend

section Keeps
variable {keeps : Contents → Prop} (h : ChangesKeep keeps)
include h

theorem keeps_change (b : Backend) (change : Change) : (b.change change).Keeps keeps := by
  intro c hc
  refine (b.change_ensures c change).mono fun answer d hd => ?_
  cases answer with
  | ok => exact h c d change hc hd
  | error =>
    cases hd
    exact hc

theorem keeps_createTable (b : Backend) (chunking : Chunking) (s : DataSet) (a : DataArray) :
    (b.createTable chunking s a).Keeps keeps := by
  intro c hc
  refine (keeps_change h b _ c hc).bind (fun _ d hd => ?_) fun _ _ hd => hd
  exact Session.ensures_forM (fun entry _ e he => keeps_change h b _ e he) hd

theorem keeps_prepareTable (b : Backend) (chunking : Chunking) (s : DataSet) (force : Bool)
    (a : DataArray) : (b.prepareTable chunking s force a).Keeps keeps := by
  intro c hc
  refine Session.ensures_get_bind ?_
  split
  · exact keeps_createTable h b chunking s a c hc
  · split
    · exact (keeps_change h b _ c hc).bind
        (fun _ d hd => keeps_createTable h b chunking s a d hd) fun _ _ hd => hd
    · exact hc

theorem keeps_appendRows (b : Backend) (a : DataArray) : (b.appendRows a).Keeps keeps := by
  intro c hc
  refine Session.ensures_get_bind (Session.ensures_lift_bind (fun t _ => ?_) fun _ _ => hc)
  refine Session.ensures_lift_bind (fun extents _ => ?_) fun _ _ => hc
  dsimp only
  split
  · exact hc
  · split
    · exact hc
    · split
      · exact hc
      · exact (keeps_change h b _ c hc).bind (fun _ d hd => keeps_change h b _ d hd)
          fun _ _ hd => hd

/-- What every change keeps, a store keeps. -/
theorem keeps_store (b : Backend) (chunking : Chunking) (s : DataSet) (force : Bool) :
    (b.store chunking s force).Keeps keeps := by
  intro c hc
  refine Session.ensures_get_bind (Session.ensures_lift_bind (fun single _ => ?_) fun _ _ => hc)
  split
  · exact hc
  · refine Session.ensures_forM (fun a _ d hd => ?_) hc
    exact (keeps_prepareTable h b chunking s force a d hd).bind
      (fun _ e he => keeps_appendRows h b a e he) fun _ _ he => he

end Keeps

/-- The tables stay in the order of their ids. -/
theorem changesKeep_ordered : ChangesKeep fun c => Keyed.Ordered c.tables := by
  intro c d change hc hd
  cases change with
  | create id columns chunking =>
    rw [changed?_create_eq_some hd]
    exact hc.insert id _
  | unlink id =>
    rw [changed?_unlink_eq_some hd]
    exact List.Pairwise.filter _ hc
  | edit id edit =>
    obtain ⟨t, u, -, -, rfl⟩ := changed?_edit_eq_some hd
    exact hc.insert id u
  | beginSnapshot =>
    replace hd : (if c.snapshot?.isSome then none else some _) = some d := hd
    split at hd
    · cases hd
    · cases hd
      exact hc
  | instrument name =>
    obtain ⟨instruments, -, rfl⟩ := changed?_instrument_eq_some hd
    exact hc
  | parameter instrument name value =>
    obtain ⟨instruments, parameters, -, -, rfl⟩ := changed?_parameter_eq_some hd
    exact hc

end Backend

/-! ## Arrays -/

namespace DataArray

/-- An array as it comes back: under its name and its label, with the measured rows, and without its
handles. If the columns are lost with the units, there is only the first one. -/
def reloaded (a : DataArray) : DataArray :=
  { id := a.id, givenName := some a.name, givenLabel := some a.label, units := a.rereadUnits,
    isSetpoint := a.isSetpoint
    samples := if LosesColumns a.units then columnOf a.width 0 (a.measuredFrom 0)
      else a.measuredFrom 0 }

/-- The units that are read back fit the columns, unless the columns are lost. -/
theorem fill_measured (arithmetic : Arithmetic) (a : DataArray) {b : DataArray}
    (hunits : b.units = []) (hsamples : b.samples = []) :
    b.fill arithmetic a.rereadUnits a.width (a.measuredFrom 0) =
      .ok { b with units := a.reloaded.units, samples := a.reloaded.samples } := by
  have hwidth := a.widthOf_rereadUnits
  unfold fill reloaded
  by_cases h : LosesColumns a.units
  · have hnone : a.rereadUnits = [] := by
      rw [rereadUnits_eq, if_pos ((isVoid_unitList?_iff h.1).2 h)]
    have hcolumns : 2 ≤ a.width := Nat.le_trans h.1 (Nat.le_max_right 1 _)
    rw [if_pos h] at hwidth
    rw [hwidth, if_neg (by omega), hnone, if_neg (by decide), Nat.max_eq_right (by omega),
      if_pos h]
    have hone : b.width = 1 := by
      rw [width, hunits]
      rfl
    rw [← hunits]
    exact if_pos (by rw [hone, Nat.mod_one])
  · rw [if_neg h] at hwidth
    rw [if_pos hwidth, setUnits_of_no_samples arithmetic hsamples, if_neg h]
    have hwhole : (a.measuredFrom 0).length % widthOf a.rereadUnits = 0 := by
      rw [hwidth, length_measuredFrom, Nat.mul_mod_left]
    exact if_pos hwhole

end DataArray

namespace Backend
variable {b : Backend} {arithmetic : Arithmetic} {chunking : Chunking} {s : DataSet} {a : DataArray}
  {t : StoredTable}

/-- The attributes of an array are read back. -/
theorem readText_attributesOf (b : Backend) (s : DataSet) (a : DataArray)
    (ht : t.attributes = (attributesOf s a).map fun entry => (entry.1, .text entry.2.encode)) :
    b.readText t.attributes "label" = .ok (some a.label) ∧
      b.readText t.attributes "name" = .ok (some a.name) ∧
      b.readText t.attributes "units" = .ok (some (Units.toAttribute a.unitList?)) ∧
      b.readText t.attributes "is_setpoint" = .ok (some (Attribute.ofBool a.isSetpoint)) ∧
      (a.isSetpoint = false →
        readTexts t.attributes "set_arrays" = .ok (some (s.dependencyIds a))) := by
  have hdecode : ∀ text, (Attribute.decode (Utf8.encode text)).map some = .ok (some text) := by
    intro text
    rw [Attribute.decode_eq_ok_iff.2 rfl]
    rfl
  rw [ht]
  refine ⟨hdecode a.label, hdecode a.name, hdecode _, hdecode _, fun hset => ?_⟩
  have hlookup : ((attributesOf s a).map fun entry =>
      (entry.1, StoredAttribute.text entry.2.encode)).lookup "set_arrays" =
        some (.text (.list ((s.dependencyIds a).map Utf8.encode))) := by
    rw [attributesOf, hset]
    rfl
  rw [readTexts, hlookup]
  dsimp only
  rw [Attribute.mapM_decode_encode]
  rfl

/-- An array comes back from the table that its measured rows have been added to. -/
theorem readArray_of_grown (h : (StoredTable.fresh chunking s a).Grown a (a.measuredFrom 0) t) :
    b.readArray arithmetic a.id t =
      .ok (a.reloaded, if a.isSetpoint then [] else s.dependencyIds a) := by
  obtain ⟨hlabel, hname, hunits, hflag, harrays⟩ := b.readText_attributesOf s a h.attributes
  obtain ⟨rows, -, hshape⟩ := h.shape
  have hset : b.readIsSetpoint a.id t.attributes = .ok a.isSetpoint := by
    rw [readIsSetpoint, hflag]
    exact Attribute.toBool_ofBool a.isSetpoint
  have hids : readSetArrays a.id t.attributes a.isSetpoint =
      .ok (if a.isSetpoint then [] else s.dependencyIds a) := by
    unfold readSetArrays
    cases hs : a.isSetpoint with
    | true => rfl
    | false =>
      rw [harrays hs]
      rfl
  have hread : t.read a.id = .ok (a.measuredFrom 0, a.width) := by
    rw [StoredTable.read, hshape, h.samples]
    rfl
  have hfill := a.fill_measured arithmetic
    (b := { id := a.id, givenName := some a.name, givenLabel := some a.label,
            isSetpoint := a.isSetpoint }) rfl rfl
  simp only [readArray, hlabel, hname, hunits, hset, hids, hread, bind, Except.bind]
  show (((DataArray.fill arithmetic _ a.rereadUnits a.width (a.measuredFrom 0)).mapError
    DataArray.Fault.toError).bind _) = _
  rw [hfill]
  rfl

/-! ## Data sets -/

theorem outcome_addArray {t u : DataSet} (h : t.add a = .ok u) :
    (addArray a).outcome t = (.ok ⟨t.size⟩, u) := by
  rw [addArray, Session.outcome_get_bind, Session.outcome_bind, Session.outcome_lift, h]
  rfl

/-- The arrays of the tables are added in turn. -/
theorem outcome_addTables {tables : List (String × StoredTable)}
    {pairs : List (DataArray × List String)}
    (hread : List.Forall₂ (fun entry pair => b.readArray arithmetic entry.1 entry.2 = .ok pair)
      tables pairs)
    {t u : DataSet} {handles : List Handle}
    (hadd : t.addAll (pairs.map Prod.fst) = .ok (u, handles)) :
    Session.outcome (tables.mapM (b.addTable arithmetic)) t =
      (.ok (handles.zip (pairs.map Prod.snd)), u) := by
  induction hread generalizing t handles with
  | nil =>
    cases hadd
    rfl
  | @cons entry pair tables pairs hentry _ ih =>
    rw [List.map_cons, DataSet.addAll] at hadd
    split at hadd
    · cases hadd
    · next v hv =>
      rcases hrest : v.addAll (pairs.map Prod.fst) with _ | ⟨w, rest⟩ <;> rw [hrest] at hadd <;>
        cases hadd
      have hfirst : (b.addTable arithmetic entry).outcome t = (.ok (⟨t.size⟩, pair.2), v) := by
        rw [addTable, Session.outcome_bind, Session.outcome_lift, hentry]
        dsimp only
        rw [Session.outcome_bind, outcome_addArray hv]
        rfl
      rw [List.mapM_cons, Session.outcome_bind, hfirst]
      dsimp only
      rw [Session.outcome_bind, ih hrest]
      rfl

/-- The arrays of the tables are added, and linked by their ids. -/
theorem outcome_loadTables {tables : List (String × StoredTable)}
    {pairs : List (DataArray × List String)}
    (hread : List.Forall₂ (fun entry pair => b.readArray arithmetic entry.1 entry.2 = .ok pair)
      tables pairs)
    (h : DataSet.Assemblable pairs) (location : String) (disk : Disk) :
    ∃ t, (b.loadTables arithmetic tables).outcome { location, disk } = (.ok (), t) ∧
      DataSet.IsAssembly t pairs := by
  obtain ⟨t, ht, hc, harrays⟩ := h.addAll_eq_ok location disk
  refine ⟨t.linked (DataSet.references pairs), ?_,
    DataSet.isAssembly_linked_references hc harrays h⟩
  rw [loadTables, Session.outcome_bind, outcome_addTables hread ht]
  show (linkArrays ((DataSet.references pairs).filter _)).outcome t = _
  rw [linkArrays, Session.outcome_get_bind, DataSet.linkByIds_filter_references hc harrays h]
  rfl

end Backend

/-- An array as it comes back, with the ids of its set arrays. -/
def DataSet.reloaded (s : DataSet) (a : DataArray) : DataArray × List String :=
  (a.reloaded, s.dependencyIds a)

namespace DataSet
variable {s : DataSet} {a : DataArray}

/-- An independent variable has no set arrays. -/
theorem Coherent.dependencyIds_eq_nil (hs : Coherent s) (ha : a ∈ s.arrays)
    (hset : a.isSetpoint = true) : s.dependencyIds a = [] := by
  obtain ⟨i, hi⟩ := List.mem_iff_getElem?.1 ha
  rw [dependencyIds, dependencies, (hs.links ⟨i⟩ a hi).setpoint hset]
  rfl

theorem mem_of_mem_dependencies {other : DataArray} (h : other ∈ s.dependencies a) :
    other ∈ s.arrays := by
  obtain ⟨k, -, hk⟩ := List.mem_filterMap.1 h
  exact List.mem_of_getElem? hk

theorem Coherent.assemblable_reloaded (hs : Coherent s) :
    Assemblable (s.arrays.map s.reloaded) := by
  refine ⟨?_, ?_, ?_, ?_⟩
  · rw [List.map_map]
    exact hs.nodup_ids
  · exact List.forall_mem_map.2 fun _ _ => rfl
  · exact List.forall_mem_map.2 fun a ha hset => hs.dependencyIds_eq_nil ha hset
  · refine List.forall_mem_map.2 fun a _ id hid => ?_
    obtain ⟨other, ho, rfl⟩ := List.mem_map.1 hid
    exact ⟨_, List.mem_map_of_mem (mem_of_mem_dependencies ho), rfl⟩

end DataSet

namespace Backend
variable {b : Backend} {arithmetic : Arithmetic} {chunking : Chunking} {s : DataSet} {force : Bool}
  {c : Contents}

/-- The tables of a new container are in the order of their ids. -/
theorem ordered_of_store (h : (b.store chunking s force).outcome {} = (.ok (), c)) :
    Keyed.Ordered c.tables := by
  have hkept := keeps_store changesKeep_ordered b chunking s force {} List.Pairwise.nil
  rwa [Session.Ensures, h] at hkept

/-- After a store into a new container, every array has a table. -/
theorem table_of_store (hn : (s.arrays.map DataArray.id).Nodup)
    (h : (b.store chunking s force).outcome {} = (.ok (), c)) (ha : a ∈ s.arrays) :
    ∃ t, (a.id, t) ∈ c.tables ∧
      (StoredTable.fresh chunking s a).Grown a (a.measuredFrom 0) t := by
  obtain ⟨-, -, -, hstored⟩ := store_eq_ok hn h
  obtain ⟨t, rows, ht, hshape, hgrown⟩ := hstored a ha
  have hbase : ({} : Contents).baseTable chunking s force a = StoredTable.fresh chunking s a := by
    cases force <;> rfl
  rw [hbase] at hshape hgrown
  cases hshape
  exact ⟨t, (ordered_of_store h).find?_eq_some_iff.1 ht, hgrown⟩

/-- Every table is that of an array. -/
theorem source_of_store (hn : (s.arrays.map DataArray.id).Nodup)
    (h : (b.store chunking s force).outcome {} = (.ok (), c)) :
    ∀ entry ∈ c.tables, ∃ a ∈ s.arrays, a.id = entry.1 ∧
      (StoredTable.fresh chunking s a).Grown a (a.measuredFrom 0) entry.2 := by
  intro entry he
  obtain ⟨-, -, hothers, -⟩ := store_eq_ok hn h
  have hordered := ordered_of_store h
  have ht : c.table? entry.1 = some entry.2 := hordered.find?_eq_some_iff.2 he
  have hid : entry.1 ∈ s.arrays.map DataArray.id := by
    by_contra hne
    rw [hothers _ hne] at ht
    cases ht
  obtain ⟨a, ha, hid⟩ := List.mem_map.1 hid
  obtain ⟨t, hm, hgrown⟩ := table_of_store hn h ha
  rw [hid, ← hordered.find?_eq_some_iff] at hm
  cases ht.symm.trans hm
  exact ⟨a, ha, hid, hgrown⟩

/-- The tables are those of the arrays, in the order of their ids. -/
theorem tables_of_store (hn : (s.arrays.map DataArray.id).Nodup)
    (h : (b.store chunking s force).outcome {} = (.ok (), c)) :
    ∃ arrays : List DataArray, arrays.Perm s.arrays ∧
      (arrays.map DataArray.id).Pairwise (fun x y => Text.precedes x y = true) ∧
      List.Forall₂ (fun entry a => a ∈ s.arrays ∧ a.id = entry.1 ∧
        (StoredTable.fresh chunking s a).Grown a (a.measuredFrom 0) entry.2) c.tables arrays := by
  have hordered := ordered_of_store h
  have hsource := source_of_store hn h
  have : Nonempty DataArray := ⟨{ id := "" }⟩
  choose! source hsource using hsource
  have hids : (c.tables.map source).map DataArray.id = c.tables.map Prod.fst := by
    rw [List.map_map]
    exact List.map_congr_left fun entry he => (hsource entry he).2.1
  refine ⟨c.tables.map source, ?_, hids ▸ List.pairwise_map.2 hordered,
    List.forall₂_map_right_iff.2 (List.forall₂_same.2 hsource)⟩
  rw [List.perm_ext_iff_of_nodup (hids ▸ hordered.nodup).of_map hn.of_map]
  intro a
  constructor
  · intro ha
    obtain ⟨entry, he, rfl⟩ := List.mem_map.1 ha
    exact (hsource entry he).1
  · intro ha
    obtain ⟨t, ht, -⟩ := table_of_store hn h ha
    obtain ⟨hm, hid, -⟩ := hsource _ ht
    have hsame := List.inj_on_of_nodup_map hn hm ha hid
    exact hsame ▸ List.mem_map_of_mem ht

/-- A data set that has been stored comes back: its arrays in the order of their ids, each with what
has been measured and with the ids of its set arrays. -/
theorem load_store (hs : DataSet.Coherent s)
    (h : (b.store chunking s force).outcome {} = (.ok (), c)) (b' : Backend)
    (arithmetic : Arithmetic) (location : String) (disk : Disk) :
    ∃ t, (b'.load arithmetic c).outcome { location, disk } = (.ok (), t) ∧ t.size = s.size ∧
      (t.arrays.map DataArray.id).Pairwise (fun x y => Text.precedes x y = true) ∧
      ∀ a ∈ s.arrays, t.described a.id = some (s.reloaded a) := by
  obtain ⟨hattributes, -⟩ := store_eq_ok hs.nodup_ids h
  obtain ⟨arrays, hperm, hordered, htables⟩ := tables_of_store hs.nodup_ids h
  have hread : List.Forall₂ (fun entry pair => b'.readArray arithmetic entry.1 entry.2 = .ok pair)
      c.tables (arrays.map s.reloaded) := by
    refine List.forall₂_map_right_iff.2 (htables.imp fun entry a ha => ?_)
    obtain ⟨hm, hid, hgrown⟩ := ha
    rw [← hid, readArray_of_grown hgrown, DataSet.reloaded]
    split
    · next hset => rw [hs.dependencyIds_eq_nil hm hset]
    · rfl
  have hpairs := hperm.map s.reloaded
  obtain ⟨t, ht, hassembly⟩ :=
    outcome_loadTables hread (hs.assemblable_reloaded.perm hpairs.symm) location disk
  refine ⟨t, ?_, ?_, ?_, fun a ha => ?_⟩
  · rw [load, Session.outcome_bind, Session.outcome_lift,
      b'.holdsSingleTable_of_unmarked (hattributes ▸ rfl)]
    exact ht
  · rw [hassembly.size, hpairs.length_eq, List.length_map]
    rfl
  · rw [hassembly.map_id, List.map_map]
    exact hordered
  · exact hassembly.described_eq_some_iff.2 ⟨hpairs.mem_iff.2 (List.mem_map_of_mem ha), rfl⟩

end Backend
end ArrayStore
