import ArrayStore.Proofs.Storage.Sessions

/-!
# Stored snapshots

* `Snapshot.stored` : the values of a snapshot as a container holds them;
* `Contents.SameArrays` : nothing but the snapshot differs;
* `Backend.storeSnapshot_ensures` : storing a snapshot leaves the arrays, and a snapshot that is
  there; an accepted one stores exactly the values, so that snapshots with the same values are
  stored alike.
-/

namespace ArrayStore

theorem Keyed.insert_insert {α : Type} (key : String) (value other : α)
    (entries : List (String × α)) :
    insert key value (insert key other entries) = insert key value entries := by
  have hnot : ¬Text.precedes key key = true := by
    rw [Text.precedes_irrefl]
    exact Bool.false_ne_true
  have hagain : ∀ rest, insert key value ((key, other) :: rest) = (key, value) :: rest :=
    fun _ => (if_neg hnot).trans (if_pos rfl)
  induction entries with
  | nil => exact hagain []
  | cons entry rest ih =>
    by_cases hlt : Text.precedes key entry.1 = true
    · have hfront : ∀ v, insert key v (entry :: rest) = (key, v) :: entry :: rest :=
        fun _ => if_pos hlt
      rw [hfront, hfront, hagain]
    · by_cases heq : key = entry.1
      · have hhere : ∀ v, insert key v (entry :: rest) = (key, v) :: rest :=
          fun _ => (if_neg hlt).trans (if_pos heq)
        rw [hhere, hhere, hagain]
      · have hlater : ∀ v l, insert key v (entry :: l) = entry :: insert key v l :=
          fun _ _ => (if_neg hlt).trans (if_neg heq)
        rw [hlater, hlater, hlater, ih]

def storedText (text : String) : StoredAttribute := .text (Attribute.text text).encode

/-- The parameters of an instrument as a container holds them. -/
def storedParameters (parameters : List (String × String)) : List (String × StoredAttribute) :=
  Keyed.ofList (parameters.map fun (name, text) => (name, storedText text))

/-- The values of a snapshot as a container holds them. -/
def Snapshot.stored (values : Snapshot) : List (String × List (String × StoredAttribute)) :=
  Keyed.ofList (values.values.map fun (name, parameters) => (name, storedParameters parameters))

namespace Contents
variable {c d e : Contents}

/-- Nothing but the snapshot differs. -/
structure SameArrays (c d : Contents) : Prop where
  attributes : d.attributes = c.attributes
  tables : d.tables = c.tables

theorem SameArrays.refl (c : Contents) : c.SameArrays c := ⟨rfl, rfl⟩

theorem SameArrays.trans (h : c.SameArrays d) (h' : d.SameArrays e) : c.SameArrays e :=
  ⟨h'.attributes.trans h.attributes, h'.tables.trans h.tables⟩

theorem SameArrays.withSnapshot (c : Contents)
    (snapshot? : Option (List (String × List (String × StoredAttribute)))) :
    c.SameArrays { c with snapshot? } := ⟨rfl, rfl⟩

theorem changed?_instrument_eq_some {name : String} (h : c.changed? (.instrument name) = some d) :
    ∃ instruments, c.snapshot? = some instruments ∧
      d = { c with snapshot? := some (Keyed.insert name [] instruments) } := by
  obtain ⟨instruments, hc, h⟩ := Option.bind_eq_some_iff.1 h
  refine ⟨instruments, hc, ?_⟩
  split at h
  · cases h
  · exact (Option.some.inj h).symm

theorem changed?_parameter_eq_some {instrument name : String} {value : Encoded}
    (h : c.changed? (.parameter instrument name value) = some d) :
    ∃ instruments parameters, c.snapshot? = some instruments ∧
      Keyed.find? instrument instruments = some parameters ∧
      d = { c with snapshot? := some (Keyed.insert instrument
        (Keyed.insert name (.text value) parameters) instruments) } := by
  obtain ⟨instruments, hc, h⟩ := Option.bind_eq_some_iff.1 h
  obtain ⟨parameters, hp, h⟩ := Option.bind_eq_some_iff.1 h
  refine ⟨instruments, parameters, hc, hp, ?_⟩
  split at h
  · cases h
  · exact (Option.some.inj h).symm

end Contents

namespace Backend
open Contents
variable {c : Contents}

theorem storeParameters_ensures (b : Backend) (instrument : String)
    (entries : List (String × String)) {parameters : List (String × StoredAttribute)}
    {instruments : List (String × List (String × StoredAttribute))}
    (hc : c.snapshot? = some (Keyed.insert instrument parameters instruments)) :
    (entries.forM (b.storeParameter instrument)).Ensures c fun answer d =>
      c.SameArrays d ∧ (answer = .ok () → d.snapshot? = some (Keyed.insert instrument
        (entries.foldl
          (fun parameters entry => Keyed.insert entry.1 (storedText entry.2) parameters)
          parameters) instruments)) := by
  induction entries generalizing c parameters with
  | nil => exact Session.ensures_pure () ⟨SameArrays.refl c, fun _ => hc⟩
  | cons entry entries ih =>
    refine (b.change_ensures c _).bind (fun _ d h => ?_) fun _ d h => ?_
    · obtain ⟨instruments', parameters', hc', hp, rfl⟩ := changed?_parameter_eq_some h
      rw [hc] at hc'
      cases hc'
      rw [Keyed.find?_insert, if_pos rfl] at hp
      cases hp
      refine (ih (congrArg some (Keyed.insert_insert ..))).mono fun answer e h => ?_
      exact ⟨(SameArrays.withSnapshot c _).trans h.1, h.2⟩
    · cases h
      exact ⟨SameArrays.refl c, fun h => by cases h⟩

theorem storeInstrument_ensures (b : Backend) (entry : String × List (String × String))
    {instruments : List (String × List (String × StoredAttribute))}
    (hc : c.snapshot? = some instruments) :
    (b.storeInstrument entry).Ensures c fun answer d =>
      c.SameArrays d ∧ (answer = .ok () →
        d.snapshot? = some (Keyed.insert entry.1 (storedParameters entry.2) instruments)) := by
  refine (b.change_ensures c _).bind (fun _ d h => ?_) fun _ d h => ?_
  · obtain ⟨instruments', hc', rfl⟩ := changed?_instrument_eq_some h
    rw [hc] at hc'
    cases hc'
    refine (b.storeParameters_ensures entry.1 entry.2 rfl).mono fun answer e h => ?_
    obtain ⟨hsame, hstored⟩ := h
    refine ⟨(SameArrays.withSnapshot c _).trans hsame, fun hok => ?_⟩
    rw [hstored hok, storedParameters, Keyed.ofList, List.foldl_map]
  · cases h
    exact ⟨SameArrays.refl c, fun h => by cases h⟩

theorem storeInstruments_ensures (b : Backend) (entries : List (String × List (String × String)))
    {instruments : List (String × List (String × StoredAttribute))}
    (hc : c.snapshot? = some instruments) :
    (entries.forM b.storeInstrument).Ensures c fun answer d =>
      c.SameArrays d ∧ (answer = .ok () → d.snapshot? = some (entries.foldl
        (fun instruments entry =>
          Keyed.insert entry.1 (storedParameters entry.2) instruments) instruments)) := by
  induction entries generalizing c instruments with
  | nil => exact Session.ensures_pure () ⟨SameArrays.refl c, fun _ => hc⟩
  | cons entry entries ih =>
    refine (b.storeInstrument_ensures entry hc).bind (fun _ d h => ?_) fun _ d h => ?_
    · refine (ih (h.2 rfl)).mono fun answer e h' => ?_
      exact ⟨h.1.trans h'.1, h'.2⟩
    · exact ⟨h.1, fun h => by cases h⟩

/-- A container takes one snapshot. Storing one leaves the arrays, and a snapshot that is there; if
it is accepted, the container holds the values and nothing else, whatever the order in which they
were recorded. -/
theorem storeSnapshot_ensures (b : Backend) (path : String) (values : Snapshot) (c : Contents) :
    (b.storeSnapshot path values).Ensures c fun answer d =>
      c.SameArrays d ∧
        (c.snapshot?.isSome = true → answer = .error (.snapshotExists path) ∧ d = c) ∧
        (answer = .ok () → d.snapshot? = some values.stored) := by
  refine Session.ensures_get_bind ?_
  split
  · exact Session.ensures_throw _ ⟨SameArrays.refl c, fun _ => ⟨rfl, rfl⟩, fun h => by cases h⟩
  · next hnone =>
    refine (b.change_ensures c _).bind (fun _ d h => ?_) fun _ d h => ?_
    · have hd : d = { c with snapshot? := some [] } := by
        replace h : (if c.snapshot?.isSome then none else some _) = some d := h
        rw [if_neg hnone] at h
        exact (Option.some.inj h).symm
      subst hd
      refine (b.storeInstruments_ensures values.values rfl).mono fun answer e h => ?_
      obtain ⟨hsame, hstored⟩ := h
      refine ⟨(SameArrays.withSnapshot c _).trans hsame, fun h => absurd h hnone, fun hok => ?_⟩
      rw [hstored hok, Snapshot.stored, Keyed.ofList, List.foldl_map]
    · cases h
      exact ⟨SameArrays.refl c, fun h => absurd h hnone, fun h => by cases h⟩

end Backend
end ArrayStore
