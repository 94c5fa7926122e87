import ArrayStore.Proofs.DataArray.Measured
import ArrayStore.Proofs.Storage.Sessions

/-!
# What storing an array does to its table

* `StoredTable.tagged`, `StoredTable.fresh` : a table with attributes, and that of an array as it is
  created;
* `StoredTable.Grown` : a table with rows up to the measured ones of an array;
* `Backend.tags_ensures`, `Backend.createTable_ensures`, `Backend.prepareTable_ensures`,
  `Backend.grow_put_ensures`, `Backend.appendRows_ensures` : what the parts of storing an array do,
  wherever they break off;
* `Backend.storeArray_ensures` : what storing it does;
* `Backend.outcome_appendRows` : what is decided before rows are added.
-/

namespace ArrayStore

/-- The samples of the measured rows from one row on. -/
def DataArray.measuredFrom (a : DataArray) (first : Nat) : List Double :=
  (a.samples.take (a.measuredRows * a.width)).drop (first * a.width)

theorem DataArray.length_measuredFrom (a : DataArray) (first : Nat) :
    (a.measuredFrom first).length = (a.measuredRows - first) * a.width := by
  rw [measuredFrom, List.length_drop, List.length_take,
    Nat.min_eq_left a.measuredRows_mul_width_le, Nat.sub_mul]

theorem DataArray.samplesBetween?_measuredRows {a : DataArray} {first : Nat}
    (h : first ≤ a.measuredRows) :
    a.samplesBetween? first a.measuredRows = some (a.measuredFrom first) :=
  if_pos ⟨Nat.mul_le_mul_right _ h, a.measuredRows_mul_width_le⟩

/-! ## Tables -/

namespace StoredTable
variable {t u : StoredTable} {rows columns : Nat}

def tagged (t : StoredTable) (entries : List (String × Attribute)) : StoredTable :=
  { t with
    attributes := t.attributes ++ entries.map fun entry => (entry.1, .text entry.2.encode) }

/-- The table of an array as it is created. -/
def fresh (chunking : Chunking) (s : DataSet) (a : DataArray) : StoredTable :=
  (StoredTable.empty a.width chunking).tagged (attributesOf s a)

theorem tagged_nil (t : StoredTable) : t.tagged [] = t := by
  unfold tagged
  rw [List.map_nil, List.append_nil]

theorem tagged_of_tag? {entry : String × Attribute} (h : t.tag? entry.1 entry.2.encode = some u)
    (entries : List (String × Attribute)) : u.tagged entries = t.tagged (entry :: entries) := by
  unfold tag? at h
  split at h
  · cases h
  · cases h
    unfold tagged
    rw [List.append_assoc]
    rfl

theorem length_samples (h : t.shape = [rows, columns]) : t.samples.length = rows * columns := by
  rw [t.complete, h, List.foldr_cons, List.foldr_cons, List.foldr_nil, Nat.mul_one]

/-- The rows of `t`, and further ones up to the measured rows of an array, with the samples
`more`. -/
structure Grown (t : StoredTable) (a : DataArray) (more : List Double) (u : StoredTable) :
    Prop where
  chunking : u.chunking? = t.chunking?
  attributes : u.attributes = t.attributes
  shape : ∃ rows, t.shape = [rows, a.width] ∧ u.shape = [max rows a.measuredRows, a.width]
  samples : u.samples = t.samples ++ more

/-- A table that is long enough has no further rows. -/
theorem grown_of_le {a : DataArray} (h : t.shape = [rows, a.width]) (hle : a.measuredRows ≤ rows) :
    t.Grown a (a.measuredFrom rows) t := by
  have hnone : a.measuredFrom rows = [] := by
    rw [← List.length_eq_zero_iff, a.length_measuredFrom, Nat.sub_eq_zero_of_le hle, Nat.zero_mul]
  refine ⟨rfl, rfl, ⟨rows, h, ?_⟩, ?_⟩
  · rw [Nat.max_eq_left hle, h]
  · rw [hnone, List.append_nil]

/-- New rows hold NaN. -/
theorem grown_of_grow? {a : DataArray} (h : t.shape = [rows, a.width]) (hle : rows ≤ a.measuredRows)
    (hu : t.grow? a.measuredRows = some u) :
    t.Grown a (List.replicate ((a.measuredRows - rows) * a.width) Double.nan) u := by
  have hlength := length_samples h
  have hroom : t.samples.length ≤ a.measuredRows * a.width :=
    hlength ▸ Nat.mul_le_mul_right _ hle
  unfold grow? at hu
  split at hu
  · next hshape =>
    rw [h] at hshape
    cases hshape
    cases hu
    refine ⟨rfl, rfl, ⟨rows, h, by rw [Nat.max_eq_right hle]⟩, ?_⟩
    show (t.samples.rightpad _ _).take _ = _
    rw [List.take_of_length_le]
    · rw [List.rightpad, hlength, Nat.sub_mul]
    · rw [List.length_rightpad, Nat.max_eq_left hroom]
  · cases hu

/-- The samples of the new rows are put over NaN. -/
theorem Grown.of_put? {v : StoredTable} {a : DataArray} {padding more : List Double}
    (hu : t.Grown a padding u) (h : t.shape = [rows, a.width])
    (hlength : more.length = padding.length) (hv : u.put? rows more = some v) :
    t.Grown a more v := by
  obtain ⟨hchunking, hattributes, ⟨before, hbefore, hshape⟩, hsamples⟩ := hu
  have hstart : rows * a.width = t.samples.length := (length_samples h).symm
  unfold put? at hv
  split at hv
  · next width hwidth =>
    rw [hshape] at hwidth
    cases hwidth
    dsimp only at hv
    split at hv
    · cases hv
      refine ⟨hchunking, hattributes, ⟨before, hbefore, hshape⟩, ?_⟩
      show u.samples.take _ ++ more ++ u.samples.drop _ = _
      rw [hsamples, hstart, List.take_left, hlength, ← List.length_append, List.drop_length,
        List.append_nil]
    · cases hv
  · cases hv

/-- The table as it was, or with rows up to the measured ones of an array. -/
def Reaches (t : StoredTable) (a : DataArray) (u : StoredTable) : Prop :=
  u = t ∨ ∃ more, t.Grown a more u

end StoredTable

/-- The table that the rows of an array are added to. -/
def Contents.baseTable (c : Contents) (chunking : Chunking) (s : DataSet) (force : Bool)
    (a : DataArray) : StoredTable :=
  if force then StoredTable.fresh chunking s a
  else (c.table? a.id).getD (StoredTable.fresh chunking s a)

/-! ## The parts of storing an array -/

namespace Backend
open Contents
variable {b : Backend} {chunking : Chunking} {s : DataSet} {a : DataArray} {c d : Contents}

theorem extents_eq_ok {id : String} {t : StoredTable} {rows columns : Nat}
    (h : t.extents id = .ok (rows, columns)) : t.shape = [rows, columns] := by
  unfold StoredTable.extents at h
  split at h
  · next hshape =>
    cases h
    exact hshape
  · cases h

/-- A change of a table. -/
theorem change_edit_ensures (b : Backend) (c : Contents) (id : String) (edit : StoredTable.Edit) :
    (b.change (.edit id edit)).Ensures c fun answer d =>
      Frame id c d ∧ match answer with
        | .ok () => ∃ t u, c.table? id = some t ∧ t.edit? edit = some u ∧ d.table? id = some u
        | .error _ => d = c := by
  refine (b.change_ensures c _).mono fun answer d h => ?_
  cases answer with
  | ok =>
    obtain ⟨t, u, ht, hu, rfl⟩ := changed?_edit_eq_some h
    refine ⟨Frame.putTable id c u, t, u, ht, hu, ?_⟩
    rw [table?_putTable, if_pos rfl]
  | error =>
    cases h
    exact ⟨Frame.refl id c, rfl⟩

/-- The attributes are given in turn. -/
theorem tags_ensures (b : Backend) {id : String} (entries : List (String × Attribute))
    {t : StoredTable} (ht : c.table? id = some t) :
    (entries.forM (b.tag id)).Ensures c fun answer d =>
      Frame id c d ∧ ∃ done rest, entries = done ++ rest ∧ d.table? id = some (t.tagged done) ∧
        (answer = .ok () → rest = []) := by
  induction entries generalizing c t with
  | nil =>
    refine Session.ensures_pure () ⟨Frame.refl id c, [], [], rfl, ?_, fun _ => rfl⟩
    rw [t.tagged_nil]
    exact ht
  | cons entry entries ih =>
    refine (b.change_edit_ensures c id _).bind (fun _ d h => ?_) fun _ d h => ?_
    · obtain ⟨hframe, t', u, ht', hu, hd⟩ := h
      rw [ht] at ht'
      cases ht'
      refine (ih hd).mono fun answer e h => ?_
      obtain ⟨hframe', done, rest, rfl, he, hrest⟩ := h
      refine ⟨hframe.trans hframe', entry :: done, rest, rfl, ?_, hrest⟩
      rw [he, StoredTable.tagged_of_tag? hu]
    · obtain ⟨hframe, rfl⟩ := h
      refine ⟨hframe, [], entry :: entries, rfl, ?_, fun h => by cases h⟩
      rw [t.tagged_nil]
      exact ht

/-- A table is created without rows, and is given its attributes in turn. -/
theorem createTable_ensures (b : Backend) (chunking : Chunking) (s : DataSet)
    (hnone : c.table? a.id = none) :
    (b.createTable chunking s a).Ensures c fun answer d =>
      Frame a.id c d ∧ (∀ u, d.table? a.id = some u → u.shape = [0, a.width]) ∧
        (answer = .ok () → d.table? a.id = some (StoredTable.fresh chunking s a)) := by
  refine (b.change_ensures c _).bind (fun _ d h => ?_) fun e d h => ?_
  · have hd : d = c.putTable a.id (StoredTable.empty a.width chunking) := changed?_create_eq_some h
    have ht : d.table? a.id = some (StoredTable.empty a.width chunking) := by
      rw [hd, table?_putTable, if_pos rfl]
    refine (b.tags_ensures (attributesOf s a) ht).mono fun answer e h => ?_
    obtain ⟨hframe, done, rest, hentries, he, hrest⟩ := h
    refine ⟨(hd ▸ Frame.putTable a.id c _).trans hframe, fun u hu => ?_, fun hok => ?_⟩
    · rw [he] at hu
      cases hu
      rfl
    · rw [hrest hok, List.append_nil] at hentries
      rw [he, ← hentries]
      rfl
  · cases h
    refine ⟨Frame.refl a.id c, fun u hu => ?_, fun h => by cases h⟩
    rw [hnone] at hu
    cases hu

/-- Then there is a table, new or as it was. If forced to, it is new. -/
theorem prepareTable_ensures (b : Backend) (chunking : Chunking) (s : DataSet) (force : Bool)
    (a : DataArray) (c : Contents) :
    (b.prepareTable chunking s force a).Ensures c fun answer d =>
      Frame a.id c d ∧
        (force = false → ∀ t, c.table? a.id = some t → d.table? a.id = some t) ∧
        (c.table? a.id = none → ∀ u, d.table? a.id = some u → u.shape = [0, a.width]) ∧
        (answer = .ok () → d.table? a.id = some (c.baseTable chunking s force a)) := by
  refine Session.ensures_get_bind ?_
  cases ht : c.table? a.id with
  | none =>
    refine (b.createTable_ensures chunking s ht).mono fun answer d h => ?_
    obtain ⟨hframe, hshape, hfresh⟩ := h
    refine ⟨hframe, fun _ t h => (by cases h), fun _ => hshape, fun hok => ?_⟩
    rw [hfresh hok, baseTable, ht, Option.getD_none, ite_self]
  | some t =>
    cases force with
    | false =>
      refine Session.ensures_pure () ⟨Frame.refl a.id c, fun _ _ h => ht.trans h,
        fun h => (by cases h), fun _ => ?_⟩
      rw [ht, baseTable, ht]
      rfl
    | true =>
      refine (b.change_ensures c _).bind (fun _ d h => ?_) fun _ d h => ?_
      · have hd : d = { c with tables := Keyed.erase a.id c.tables } := changed?_unlink_eq_some h
        have hnone : d.table? a.id = none := by
          rw [hd, table?, Keyed.find?_erase, if_pos rfl]
        refine (b.createTable_ensures chunking s hnone).mono fun answer e h => ?_
        obtain ⟨hframe, -, hfresh⟩ := h
        refine ⟨(hd ▸ Frame.erase a.id c).trans hframe, fun h => (by cases h),
          fun h => (by cases h), hfresh⟩
      · cases h
        exact ⟨Frame.refl a.id c, fun h => (by cases h), fun h => (by cases h),
          fun h => by cases h⟩

/-- New rows are made and filled. Where this breaks off in between, they hold NaN. -/
theorem grow_put_ensures (b : Backend) {t : StoredTable} {rows : Nat} (ht : c.table? a.id = some t)
    (hshape : t.shape = [rows, a.width]) (hle : rows ≤ a.measuredRows) :
    (do b.change (.edit a.id (.grow a.measuredRows))
        b.change (.edit a.id (.put rows (a.measuredFrom rows))) : Session Contents Unit).Ensures c
      fun answer d => Frame a.id c d ∧ match answer with
        | .ok () => ∃ u, d.table? a.id = some u ∧ t.Grown a (a.measuredFrom rows) u
        | .error _ => d = c ∨ ∃ u more, d.table? a.id = some u ∧ t.Grown a more u := by
  refine (b.change_edit_ensures c a.id _).bind (fun _ d h => ?_) fun _ d h => ⟨h.1, Or.inl h.2⟩
  obtain ⟨hframe, t', u, ht', hu, hd⟩ := h
  rw [ht] at ht'
  cases ht'
  have hgrown := StoredTable.grown_of_grow? hshape hle hu
  refine (b.change_edit_ensures d a.id _).mono fun answer e h => ?_
  obtain ⟨hframe', h⟩ := h
  refine ⟨hframe.trans hframe', ?_⟩
  cases answer with
  | ok =>
    obtain ⟨u', v, hu', hv, he⟩ := h
    rw [hd] at hu'
    cases hu'
    refine ⟨v, he, hgrown.of_put? hshape ?_ hv⟩
    rw [a.length_measuredFrom, List.length_replicate]
  | error =>
    cases h
    exact Or.inr ⟨u, _, hd, hgrown⟩

/-- The table gets the measured rows that it does not have. Where this breaks off, it is as it was,
or has their number of rows. -/
theorem appendRows_ensures (b : Backend) (a : DataArray) (c : Contents) :
    (b.appendRows a).Ensures c fun answer d =>
      Frame a.id c d ∧ match answer with
        | .ok () => ∃ t u rows, c.table? a.id = some t ∧ d.table? a.id = some u ∧
            t.shape = [rows, a.width] ∧ t.Grown a (a.measuredFrom rows) u
        | .error _ => d = c ∨ ∃ t u more, c.table? a.id = some t ∧ d.table? a.id = some u ∧
            t.Grown a more u := by
  have hsame : Frame a.id c c := Frame.refl a.id c
  refine Session.ensures_get_bind (Session.ensures_lift_bind (fun t ht => ?_)
    fun _ _ => ⟨hsame, Or.inl rfl⟩)
  refine Session.ensures_lift_bind (fun extents hextents => ?_) fun _ _ => ⟨hsame, Or.inl rfl⟩
  obtain ⟨rows, columns⟩ := extents
  replace ht := tableOf_eq_ok ht
  replace hextents := extents_eq_ok hextents
  dsimp only
  split
  · exact Session.ensures_throw _ ⟨hsame, Or.inl rfl⟩
  · next hcolumns =>
    cases not_not.1 hcolumns
    split
    · next hle =>
      exact Session.ensures_pure () ⟨hsame, t, t, rows, ht, ht, hextents,
        StoredTable.grown_of_le hextents hle⟩
    · next hlt =>
      have hle : rows ≤ a.measuredRows := Nat.le_of_not_le hlt
      rw [DataArray.samplesBetween?_measuredRows hle]
      refine (b.grow_put_ensures ht hextents hle).mono fun answer d h => ?_
      obtain ⟨hframe, h⟩ := h
      refine ⟨hframe, ?_⟩
      cases answer with
      | ok =>
        obtain ⟨u, hu, hgrown⟩ := h
        exact ⟨t, u, rows, ht, hu, hextents, hgrown⟩
      | error =>
        refine h.imp_right fun h => ?_
        obtain ⟨u, more, hu, hgrown⟩ := h
        exact ⟨t, u, more, ht, hu, hgrown⟩

/-- A table that is there is taken as it is. -/
theorem outcome_prepareTable {t : StoredTable} (ht : c.table? a.id = some t) :
    (b.prepareTable chunking s false a).outcome c = (.ok (), c) := by
  rw [prepareTable, Session.outcome_get_bind, ht]
  rfl

/-- All that is decided before rows are added. -/
theorem outcome_appendRows (b : Backend) {t : StoredTable} {rows columns : Nat}
    (ht : c.table? a.id = some t) (hshape : t.shape = [rows, columns]) :
    (b.appendRows a).outcome c =
      if columns ≠ a.width then (.error (columnsDiffer a.id a.width columns), c)
      else if a.measuredRows ≤ rows then (.ok (), c)
      else (do
        b.change (.edit a.id (.grow a.measuredRows))
        b.change (.edit a.id (.put rows (a.measuredFrom rows))) : Session Contents Unit).outcome
          c := by
  have htable : b.tableOf c a.id = .ok t := by
    rw [tableOf, ht]
  have hextents : t.extents a.id = .ok (rows, columns) := by
    rw [StoredTable.extents, hshape]
  rw [appendRows, Session.outcome_get_bind, Session.outcome_bind, Session.outcome_lift, htable]
  dsimp only
  rw [Session.outcome_bind, Session.outcome_lift, hextents]
  dsimp only
  split
  · rfl
  · split
    · rfl
    · next hlt =>
      rw [DataArray.samplesBetween?_measuredRows (Nat.le_of_not_le hlt)]

/-! ## Storing an array -/

/-- What storing an array does to its table. Where it breaks off, a table that is there has kept its
rows, unless it was to be replaced. -/
theorem storeArray_ensures (b : Backend) (chunking : Chunking) (s : DataSet) (force : Bool)
    (a : DataArray) (c : Contents) :
    (b.storeArray chunking s force a).Ensures c fun answer d =>
      Frame a.id c d ∧
        (force = false → ∀ t, c.table? a.id = some t →
          ∃ u, d.table? a.id = some u ∧ t.Reaches a u) ∧
        (c.table? a.id = none → ∀ u, d.table? a.id = some u →
          ∃ t : StoredTable, t.shape = [0, a.width] ∧ t.Reaches a u) ∧
        (answer = .ok () → ∃ u rows, d.table? a.id = some u ∧
          (c.baseTable chunking s force a).shape = [rows, a.width] ∧
          (c.baseTable chunking s force a).Grown a (a.measuredFrom rows) u) := by
  refine (b.prepareTable_ensures chunking s force a c).bind (fun _ d h => ?_) fun _ d h => ?_
  · obtain ⟨hframe, hkept, hnew, hbase⟩ := h
    replace hbase := hbase rfl
    refine (b.appendRows_ensures a d).mono fun answer e h => ?_
    obtain ⟨hframe', h⟩ := h
    -- whatever is answered, the table has come from the one that was prepared
    have hreach : ∃ u, e.table? a.id = some u ∧
        (c.baseTable chunking s force a).Reaches a u := by
      cases answer with
      | ok =>
        obtain ⟨t, u, rows, ht, hu, -, hgrown⟩ := h
        rw [hbase] at ht
        cases ht
        exact ⟨u, hu, Or.inr ⟨_, hgrown⟩⟩
      | error =>
        rcases h with rfl | ⟨t, u, more, ht, hu, hgrown⟩
        · exact ⟨_, hbase, Or.inl rfl⟩
        · rw [hbase] at ht
          cases ht
          exact ⟨u, hu, Or.inr ⟨more, hgrown⟩⟩
    obtain ⟨u, hu, hreach⟩ := hreach
    refine ⟨hframe.trans hframe', fun hforce t ht => ⟨u, hu, ?_⟩, fun hnone v hv => ?_,
      fun hok => ?_⟩
    · have hd := hkept hforce t ht
      rw [hbase] at hd
      cases hd
      exact hreach
    · rw [hu] at hv
      cases hv
      exact ⟨_, hnew hnone _ hbase, hreach⟩
    · cases hok
      obtain ⟨t, u, rows, ht, hu, hshape, hgrown⟩ := h
      rw [hbase] at ht
      cases ht
      exact ⟨u, rows, hu, hshape, hgrown⟩
  · obtain ⟨hframe, hkept, hnew, -⟩ := h
    refine ⟨hframe, fun hforce t ht => ⟨t, hkept hforce t ht, Or.inl rfl⟩,
      fun hnone u hu => ⟨u, hnew hnone u hu, Or.inl rfl⟩, fun h => by cases h⟩

end Backend
end ArrayStore
