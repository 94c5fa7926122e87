import ArrayStore.Proofs.DataArray.StoredUnits
import ArrayStore.Proofs.DataSet.Operations
import ArrayStore.Proofs.Storage.Sessions
import ArrayStore.Storage.Reading

/-!
# Containers that hold all arrays in one table

* `IsColumn` : the array of a column, which has no more than one unit and no set arrays;
* `addColumns_ensures` : columns are added in turn, up to the first that cannot be;
* `Backend.loadSingleTable_ensures` : such a container gives one array for each column name.
-/

namespace ArrayStore

/-- The array of a column under its name. -/
structure IsColumn (columns : Nat) (samples : List Double) (entry : String × Nat) (a : DataArray) :
    Prop where
  id : a.id = entry.1
  samples : a.samples = columnOf columns entry.2 samples
  width : a.width = 1
  isSetpoint : a.isSetpoint = false
  setArrays : a.setArrays = []

theorem length_columnUnits_lt (unit? : Option String) : (columnUnits unit?).length < 2 := by
  unfold columnUnits
  split
  · exact Nat.lt_succ_self 1
  · exact Nat.zero_lt_two

theorem DataArray.ofColumn_eq_ok (arithmetic : Arithmetic) (id : String)
    (name? label? unit? : Option String) (samples : List Double) :
    ofColumn arithmetic id name? label? unit? samples =
      .ok { id, givenName := name?, givenLabel := label?, units := columnUnits unit?,
            samples } := by
  have hone : widthOf (columnUnits unit?) = 1 :=
    widthOf_of_length_lt_two (length_columnUnits_lt unit?)
  rw [ofColumn, setUnits_of_no_samples arithmetic rfl]
  exact if_pos (by rw [width, hone, Nat.mod_one])

theorem StoredTable.columnCount_eq_ok {t : StoredTable} {columns : Nat}
    (h : t.columnCount = .ok columns) : ∃ rows, t.shape = [rows, columns] := by
  unfold columnCount at h
  split at h
  · next rows _ hshape =>
    cases h
    exact ⟨rows, hshape⟩
  · cases h

theorem required_eq_ok {α : Type} {id name : String} {value? : Option α} {value : α}
    (h : required id name value? = .ok value) : value? = some value := by
  unfold required at h
  split at h
  · rw [Except.ok.inj h]
  · cases h

theorem addArray_ensures (a : DataArray) (s : DataSet) :
    (addArray a).Ensures s fun answer t =>
      match answer with
      | .ok _ => t.arrays = s.arrays ++ [a]
      | .error _ => t = s := by
  refine Session.ensures_get_bind (Session.ensures_lift_bind (fun t ht => ?_) fun _ _ => rfl)
  cases hadd : s.add a with
  | error fault =>
    rw [hadd] at ht
    cases ht
  | ok u =>
    rw [hadd] at ht
    cases ht
    show t.arrays = _
    rw [(DataSet.add_eq_ok_iff.1 hadd).2]
    rfl

section Columns
variable (arithmetic : Arithmetic) (names labels units : List (Option String)) (columns : Nat)
  (samples : List Double)

theorem addColumn_ensures (entry : String × Nat) (s : DataSet) :
    (addColumn arithmetic names labels units columns samples entry).Ensures s fun answer t =>
      match answer with
      | .ok () => ∃ a, IsColumn columns samples entry a ∧ t.arrays = s.arrays ++ [a]
      | .error _ => t = s := by
  obtain ⟨id, column⟩ := entry
  unfold addColumn
  dsimp only
  rw [DataArray.ofColumn_eq_ok]
  refine (addArray_ensures _ s).bind (fun _ t ht => ?_) fun _ _ ht => ht
  refine Session.ensures_pure () ⟨_, ⟨rfl, rfl, ?_, rfl, rfl⟩, ht⟩
  exact DataArray.widthOf_of_length_lt_two (length_columnUnits_lt _)

/-- The columns are added in turn. -/
theorem addColumns_ensures (entries : List (String × Nat)) (s : DataSet) :
    (entries.forM (addColumn arithmetic names labels units columns samples)).Ensures s
      fun answer t => ∃ done rest added, entries = done ++ rest ∧ t.arrays = s.arrays ++ added ∧
        List.Forall₂ (IsColumn columns samples) done added ∧ (answer = .ok () → rest = []) := by
  induction entries generalizing s with
  | nil => exact ⟨[], [], [], rfl, (List.append_nil _).symm, .nil, fun _ => rfl⟩
  | cons entry entries ih =>
    refine (addColumn_ensures arithmetic names labels units columns samples entry s).bind
      (fun _ t ht => ?_) fun _ t ht => ?_
    · obtain ⟨a, ha, ht⟩ := ht
      refine (ih t).mono fun answer u h => ?_
      obtain ⟨done, rest, added, rfl, hu, hadded, hrest⟩ := h
      refine ⟨entry :: done, rest, a :: added, rfl, ?_, .cons ha hadded, hrest⟩
      rw [hu, ht, List.append_assoc]
      rfl
    · refine ⟨[], entry :: entries, [], rfl, ?_, .nil, fun h => by cases h⟩
      rw [ht, List.append_nil]

end Columns

/-- Each column name of the one table has given an array, in order. Where this broke off, only
arrays have been added. -/
def AddsColumns (c : Contents) (s : DataSet) (answer : Except StoreError Unit) (u : DataSet) :
    Prop :=
  ∃ added, u.arrays = s.arrays ++ added ∧ (answer = .ok () → ∃ t rows ids,
    c.table? Container.singleTable = some t ∧ t.shape = [rows, ids.length] ∧
    readTexts t.attributes "column names" = .ok (some ids) ∧
    List.Forall₂ (IsColumn ids.length t.samples) ids.zipIdx added)

theorem addsColumns_error (c : Contents) (s : DataSet) (e : StoreError) :
    AddsColumns c s (.error e) s :=
  ⟨[], (List.append_nil _).symm, fun h => by cases h⟩

theorem Backend.loadSingleTable_ensures (b : Backend) (arithmetic : Arithmetic) (c : Contents)
    (s : DataSet) : (b.loadSingleTable arithmetic c).Ensures s (AddsColumns c s) := by
  have hfail := addsColumns_error c s
  refine Session.ensures_lift_bind (fun t ht => ?_) fun e _ => hfail e
  refine Session.ensures_lift_bind (fun columns hcolumns => ?_) fun e _ => hfail e
  refine Session.ensures_lift_bind (fun ids? hids? => ?_) fun e _ => hfail e
  refine Session.ensures_lift_bind (fun ids hids => ?_) fun e _ => hfail e
  replace ht := tableOf_eq_ok ht
  obtain ⟨rows, hshape⟩ := StoredTable.columnCount_eq_ok hcolumns
  cases required_eq_ok hids
  split
  · exact hfail _
  · next hcount =>
    cases not_not.1 hcount
    split
    · next hzero =>
      cases List.length_eq_zero_iff.1 hzero
      exact ⟨[], (List.append_nil _).symm, fun _ => ⟨t, rows, [], ht, hshape, hids?, .nil⟩⟩
    · refine Session.ensures_lift_bind (fun labels _ => ?_) fun e _ => hfail e
      refine Session.ensures_lift_bind (fun names _ => ?_) fun e _ => hfail e
      refine Session.ensures_lift_bind (fun units _ => ?_) fun e _ => hfail e
      refine (addColumns_ensures arithmetic names labels units ids.length t.samples ids.zipIdx
        s).mono fun answer u h => ?_
      obtain ⟨done, rest, added, hentries, hu, hadded, hrest⟩ := h
      refine ⟨added, hu, fun hok => ⟨t, rows, ids, ht, hshape, hids?, ?_⟩⟩
      rw [hrest hok, List.append_nil] at hentries
      exact hentries ▸ hadded

end ArrayStore
