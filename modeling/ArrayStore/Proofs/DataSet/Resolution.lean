import ArrayStore.Proofs.DataSet.Linking
import ArrayStore.Proofs.Keyed

/-!
# What the second pass resolves, and where it stops

* `Known` : all ids of a list are those of arrays;
* `Stops` : the entries before the first one that has an unknown id, and the first such id;
* `step_linkByIds_of_stops` : there the second pass stops, with the entries before it linked;
* `Relinked` : nothing but set arrays differs; `relinked_step_linkByIds`;
* `linked_perm` : entries for distinct handles may come in any order;
* `linkByIds_outcome` : all this, in every state of a run.
-/

namespace ArrayStore.DataSet
variable {arithmetic : Arithmetic} {s t : DataSet} {pending others : List (Handle × List String)}

/-- Every id is that of an array. -/
def Known (s : DataSet) (ids : List String) : Prop := ∀ id ∈ ids, id ∈ s.arrays.map DataArray.id

instance (s : DataSet) (ids : List String) : Decidable (s.Known ids) :=
  inferInstanceAs (Decidable (∀ id ∈ ids, id ∈ s.arrays.map DataArray.id))

theorem Indexed.known_iff (hs : Indexed s) {ids : List String} :
    s.Known ids ↔ ∀ id ∈ ids, (s.handle? id).isSome = true :=
  forall_congr' fun _ => imp_congr_right fun _ => hs.mem_ids_iff

/-! ## Where it stops -/

/-- All ids of the entries `before` are known. The next entry is one for `h`, and `missing` is the
first of its ids that is not. -/
structure Stops (s : DataSet) (pending before : List (Handle × List String)) (h : Handle)
    (missing : String) : Prop where
  known : ∀ entry ∈ before, s.Known entry.2
  next : ∃ found more after,
    pending = before ++ (h, found ++ missing :: more) :: after ∧ s.Known found
  unknown : missing ∉ s.arrays.map DataArray.id

/-- The first element that lacks a property, and the elements in front of it. -/
theorem exists_first_not {α : Type} {p : α → Prop} [DecidablePred p] {l : List α}
    (h : ¬∀ x ∈ l, p x) :
    ∃ before x after, l = before ++ x :: after ∧ (∀ y ∈ before, p y) ∧ ¬p x := by
  have hsome : (l.find? fun x => !decide (p x)).isSome = true := by
    rw [List.find?_isSome]
    simpa using h
  obtain ⟨x, hx⟩ := Option.isSome_iff_exists.1 hsome
  obtain ⟨hnot, before, after, hl, hbefore⟩ := List.find?_eq_some_iff_append.1 hx
  exact ⟨before, x, after, hl, fun y hy => by simpa using hbefore y hy, by simpa using hnot⟩

theorem exists_stops (h : ¬∀ entry ∈ pending, s.Known entry.2) :
    ∃ before k missing, s.Stops pending before k missing := by
  obtain ⟨before, ⟨k, ids⟩, after, hpending, hbefore, hids⟩ := exists_first_not h
  obtain ⟨found, missing, more, rfl, hfound, hmissing⟩ := exists_first_not hids
  exact ⟨before, k, missing, hbefore, ⟨found, more, after, hpending, hfound⟩, hmissing⟩

theorem linkByIds_of_stops (hs : Indexed s) {before : List (Handle × List String)} {h : Handle}
    {missing : String} (hstop : s.Stops pending before h missing) :
    s.linkByIds pending =
      ((s.linkByIds before).1, .error ⟨((s.get? h).map DataArray.id).getD "", missing⟩) := by
  obtain ⟨hknown, ⟨found, more, after, rfl, hfound⟩, hmissing⟩ := hstop
  have hbefore := fun entry he => hs.known_iff.1 (hknown entry he)
  have hlook := handle?_linked s before
  have hids : (s.linked before).handlesOf (found ++ missing :: more) = .error missing := by
    apply handlesOf_of_unknown
    · intro id hid
      rw [hlook]
      exact hs.known_iff.1 hfound id hid
    · rw [hlook, ← Option.not_isSome_iff_eq_none, ← hs.mem_ids_iff]
      exact hmissing
  have hid : ((s.linked before).get? h).map DataArray.id = (s.get? h).map DataArray.id := by
    rw [get?_linked, Option.map_map]
    congr 1
    funext a
    rw [Function.comp_apply]
    split <;> rfl
  rw [linkByIds_append_of_known hbefore, linkByIds_of_known hbefore, linkByIds, hids]
  simp only [hid]

/-! ## What changes -/

/-- Nothing but set arrays differs. -/
structure Relinked (s t : DataSet) : Prop where
  rest : t = { s with arrays := t.arrays }
  arrays : ∀ k, (t.get? k).map (·.linkTo []) = (s.get? k).map (·.linkTo [])

theorem relinked_linked (s : DataSet) (pending : List (Handle × List String)) :
    Relinked s (s.linked pending) := by
  refine ⟨linked_eq s pending, fun k => ?_⟩
  rw [get?_linked, Option.map_map]
  congr 1
  funext a
  rw [Function.comp_apply]
  split <;> rfl

theorem step_linkByIds_of_known (arithmetic : Arithmetic) (hs : Indexed s)
    (h : ∀ entry ∈ pending, s.Known entry.2) :
    s.step arithmetic (.linkByIds pending) = (s.linked pending, .ok .linked) := by
  have hlink := linkByIds_of_known fun entry he => hs.known_iff.1 (h entry he)
  rw [DataSet.step, hlink]

theorem step_linkByIds_of_stops (arithmetic : Arithmetic) (hs : Indexed s)
    {before : List (Handle × List String)} {h : Handle} {missing : String}
    (hstop : s.Stops pending before h missing) :
    s.step arithmetic (.linkByIds pending) = ((s.step arithmetic (.linkByIds before)).1,
      .error (.unknownSetArray (((s.get? h).map DataArray.id).getD "") missing)) := by
  have hbefore := linkByIds_of_known fun entry he => hs.known_iff.1 (hstop.known entry he)
  rw [step_linkByIds_of_known arithmetic hs hstop.known, DataSet.step,
    linkByIds_of_stops hs hstop, hbefore]
  rfl

/-- Stopping or not, the second pass gives nothing but set arrays. -/
theorem relinked_step_linkByIds (arithmetic : Arithmetic) (hs : Indexed s)
    (pending : List (Handle × List String)) :
    Relinked s (s.step arithmetic (.linkByIds pending)).1 := by
  by_cases h : ∀ entry ∈ pending, s.Known entry.2
  · rw [step_linkByIds_of_known arithmetic hs h]
    exact relinked_linked s pending
  · obtain ⟨before, k, missing, hstop⟩ := exists_stops h
    rw [step_linkByIds_of_stops arithmetic hs hstop,
      step_linkByIds_of_known arithmetic hs hstop.known]
    exact relinked_linked s before

/-! ## The order of the entries -/

/-- With distinct handles an entry is the last one for its handle, wherever it stands. -/
theorem lookup_reverse_perm (hp : pending.Perm others) (hn : (pending.map Prod.fst).Nodup)
    (k : Handle) : others.reverse.lookup k = pending.reverse.lookup k := by
  have hno : (others.map Prod.fst).Nodup := (hp.map Prod.fst).nodup_iff.1 hn
  have hlook : ∀ {entries : List (Handle × List String)}, (entries.map Prod.fst).Nodup →
      ∀ ids, entries.reverse.lookup k = some ids ↔ (k, ids) ∈ entries := by
    intro entries hn ids
    have hnr : (entries.reverse.map Prod.fst).Nodup := by
      rw [List.map_reverse, List.nodup_reverse]
      exact hn
    rw [Keyed.lookup_eq_some_iff_of_nodup hnr, List.mem_reverse]
  refine Option.ext fun ids => ?_
  rw [hlook hno, hlook hn, hp.mem_iff]

theorem linked_perm (hp : pending.Perm others) (hn : (pending.map Prod.fst).Nodup) :
    s.linked others = s.linked pending := by
  refine eq_of_get?_eq ?_ fun k => ?_
  · rw [linked_eq s pending]
    exact linked_eq s others
  · rw [get?_linked, get?_linked, lookup_reverse_perm hp hn]

/-! ## All that the second pass does -/

/-- In every state of a run: if all ids are known, every array is linked by the ids of the last
entry for its handle, and arrays without an entry stay as they are. Otherwise the second pass stops
at the first unknown id and reports it, and only the entries before its own are linked. Nothing but
set arrays changes, and entries for distinct handles may come in any order. -/
theorem linkByIds_outcome (arithmetic : Arithmetic) (location : String) (disk : Disk)
    (steps : List Step) (pending : List (Handle × List String)) :
    let s := (run arithmetic { location, disk } steps).1
    let t := (s.step arithmetic (.linkByIds pending)).1
    let answer := (s.step arithmetic (.linkByIds pending)).2
    ((∀ entry ∈ pending, s.Known entry.2) →
        answer = .ok .linked ∧ ∀ k a, s.get? k = some a →
          match pending.reverse.lookup k with
          | none => t.get? k = some a
          | some ids => ∃ setArrays, t.get? k = some (a.linkTo setArrays) ∧
              setArrays.map some = ids.map s.handle?) ∧
      ((¬∀ entry ∈ pending, s.Known entry.2) →
        ∃ before h missing, s.Stops pending before h missing ∧
          t = (s.step arithmetic (.linkByIds before)).1 ∧
          answer = .error (.unknownSetArray (((s.get? h).map DataArray.id).getD "") missing)) ∧
      Relinked s t ∧
      ∀ others, pending.Perm others → (pending.map Prod.fst).Nodup → answer = .ok .linked →
        s.step arithmetic (.linkByIds others) = s.step arithmetic (.linkByIds pending) := by
  intro s t answer
  have hs : Indexed s := (indexed_empty location disk).run steps
  refine ⟨fun hknown => ?_, fun hunknown => ?_, relinked_step_linkByIds arithmetic hs pending,
    fun others hp hn hok => ?_⟩
  · have hstep := step_linkByIds_of_known arithmetic hs hknown
    refine ⟨congrArg Prod.snd hstep, fun k a ha => ?_⟩
    have hget : t.get? k = (s.linked pending).get? k := congrArg (fun u => u.1.get? k) hstep
    rw [get?_linked, ha, Option.map_some] at hget
    cases hlast : pending.reverse.lookup k with
    | none => rwa [hlast] at hget
    | some ids =>
      rw [hlast] at hget
      refine ⟨ids.filterMap s.handle?, hget, ?_⟩
      have hmem : (k, ids) ∈ pending := List.mem_reverse.1 (Keyed.mem_of_lookup_eq_some hlast)
      exact handlesOf_eq_ok (handlesOf_of_known (hs.known_iff.1 (hknown _ hmem))) |>.symm
  · obtain ⟨before, h, missing, hstop⟩ := exists_stops hunknown
    have hstep := step_linkByIds_of_stops arithmetic hs hstop
    exact ⟨before, h, missing, hstop, (Prod.ext_iff.1 hstep).1, (Prod.ext_iff.1 hstep).2⟩
  · have hknown : ∀ entry ∈ pending, s.Known entry.2 := by
      by_contra hunknown
      obtain ⟨before, h, missing, hstop⟩ := exists_stops hunknown
      have hanswer : answer = _ := congrArg Prod.snd (step_linkByIds_of_stops arithmetic hs hstop)
      rw [hok] at hanswer
      cases hanswer
    have hothers : ∀ entry ∈ others, s.Known entry.2 :=
      fun entry he => hknown entry (hp.mem_iff.2 he)
    rw [step_linkByIds_of_known arithmetic hs hknown,
      step_linkByIds_of_known arithmetic hs hothers, linked_perm hp hn]

/-- Two entries for one handle, and one for a handle of no array. -/
def repeatedEntries : List (Handle × List String) :=
  [(⟨0⟩, ["y"]), (⟨7⟩, ["x"]), (⟨0⟩, ["x", "y", "x"])]

/-- An entry for a handle of no array that has two unknown ids. -/
def unknownEntries : List (Handle × List String) :=
  [(⟨0⟩, ["x"]), (⟨7⟩, ["y", "z", "w"]), (⟨0⟩, [])]

theorem linkByIds_outcome_pairOfArrays :
    let s := (run .checked {} [.add { id := "y" }, .add { id := "x" }]).1
    (∀ entry ∈ repeatedEntries, s.Known entry.2) ∧ (¬∀ entry ∈ unknownEntries, s.Known entry.2) ∧
      ((s.step .checked (.linkByIds repeatedEntries)).1.get? ⟨0⟩).map DataArray.setArrays =
        some [⟨1⟩, ⟨0⟩, ⟨1⟩] ∧
      (s.step .checked (.linkByIds unknownEntries)).2 = .error (.unknownSetArray "" "z") ∧
      ((s.step .checked (.linkByIds unknownEntries)).1.get? ⟨0⟩).map DataArray.setArrays =
        some [⟨1⟩] ∧
      (s.step .checked (.linkByIds repeatedEntries)).2 = .ok .linked ∧
      Relinked s (s.step .checked (.linkByIds unknownEntries)).1 := by
  have hknown : ∀ entry ∈ repeatedEntries,
      (run .checked {} [.add { id := "y" }, .add { id := "x" }]).1.Known entry.2 := by decide
  obtain ⟨hlinked, -⟩ :=
    linkByIds_outcome .checked "" {} [.add { id := "y" }, .add { id := "x" }] repeatedEntries
  obtain ⟨-, -, hrelinked, -⟩ :=
    linkByIds_outcome .checked "" {} [.add { id := "y" }, .add { id := "x" }] unknownEntries
  exact ⟨hknown, by decide, by decide, by decide, by decide, (hlinked hknown).1, hrelinked⟩

end ArrayStore.DataSet
