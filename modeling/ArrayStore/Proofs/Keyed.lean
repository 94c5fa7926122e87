import ArrayStore.Keyed
import Mathlib.Data.List.Induction
import Mathlib.Data.List.Nodup

/-!
# Lists ordered by key are maps

* `lookup_eq_some_iff_of_nodup` : with distinct keys every entry is found under its key;
* `Ordered.insert`, `Ordered.map` : what keeps the order of the keys;
* `Ordered.find?_eq_some_iff` : an ordered list finds exactly its entries;
* `Ordered.ext` : two ordered lists that find the same are the same;
* `ordered_ofList`, `find?_ofList`, `Ordered.ofList_eq`, `ofList_map` : the ordered list of a list
  of pairs.
-/

namespace ArrayStore.Keyed

section Lookup
variable {α β : Type} [DecidableEq α] {entries : List (α × β)} {key : α} {value : β}

theorem mem_of_lookup_eq_some (h : entries.lookup key = some value) : (key, value) ∈ entries := by
  obtain ⟨before, after, rfl, -⟩ := List.lookup_eq_some_iff.1 h
  exact List.mem_append_right before (List.mem_cons_self ..)

theorem lookup_of_mem_of_nodup (hn : (entries.map Prod.fst).Nodup) (hm : (key, value) ∈ entries) :
    entries.lookup key = some value := by
  obtain ⟨before, after, rfl⟩ := List.append_of_mem hm
  refine List.lookup_eq_some_iff.2 ⟨before, after, rfl, fun entry he => ?_⟩
  rw [List.map_append, List.map_cons, List.nodup_append] at hn
  have hne := hn.2.2 entry.1 (List.mem_map_of_mem he) key (List.mem_cons_self ..)
  exact bne_iff_ne.2 hne.symm

theorem lookup_eq_some_iff_of_nodup (hn : (entries.map Prod.fst).Nodup) :
    entries.lookup key = some value ↔ (key, value) ∈ entries :=
  ⟨mem_of_lookup_eq_some, lookup_of_mem_of_nodup hn⟩

end Lookup

variable {α β : Type} {entries others : List (String × α)} {key : String} {value : α}

theorem precedes_ne {a b : String} (h : Text.precedes a b = true) : a ≠ b := by
  rintro rfl
  rw [Text.precedes_irrefl] at h
  cases h

theorem precedes_asymm {a b : String} (h : Text.precedes a b = true) :
    Text.precedes b a ≠ true := by
  intro hba
  exact precedes_ne (Text.precedes_trans h hba) rfl

/-! ## Order -/

instance (entries : List (String × α)) : Decidable (Ordered entries) :=
  inferInstanceAs (Decidable (List.Pairwise _ _))

theorem Ordered.nodup (h : Ordered entries) : (entries.map Prod.fst).Nodup :=
  List.pairwise_map.2 (h.imp precedes_ne)

theorem Ordered.map (h : Ordered entries) (f : String → α → β) :
    Ordered (entries.map fun entry => (entry.1, f entry.1 entry.2)) :=
  List.pairwise_map.2 h

theorem mem_insert {entry : String × α} (h : entry ∈ insert key value entries) :
    entry = (key, value) ∨ entry ∈ entries := by
  induction entries with
  | nil => exact Or.inl (List.mem_singleton.1 h)
  | cons first rest ih =>
    rw [insert] at h
    split at h
    · exact List.mem_cons.1 h
    · split at h
      · rcases List.mem_cons.1 h with h | h
        · exact Or.inl h
        · exact Or.inr (List.mem_cons_of_mem _ h)
      · rcases List.mem_cons.1 h with rfl | h
        · exact Or.inr (List.mem_cons_self ..)
        · exact (ih h).imp id (List.mem_cons_of_mem _)

theorem Ordered.insert (h : Ordered entries) (key : String) (value : α) :
    Ordered (insert key value entries) := by
  induction entries with
  | nil => exact List.pairwise_singleton ..
  | cons first rest ih =>
    obtain ⟨hfirst, hrest⟩ := List.pairwise_cons.1 h
    rw [Keyed.insert]
    split
    · next hlt =>
      refine List.pairwise_cons.2 ⟨fun entry he => ?_, h⟩
      rcases List.mem_cons.1 he with rfl | he
      · exact hlt
      · exact Text.precedes_trans hlt (hfirst entry he)
    · next hlt =>
      split
      · next heq =>
        subst heq
        exact List.pairwise_cons.2 ⟨hfirst, hrest⟩
      · next hne =>
        have hgt : Text.precedes first.1 key = true :=
          (Text.precedes_total hne).resolve_left hlt
        refine List.pairwise_cons.2 ⟨fun entry he => ?_, ih hrest⟩
        rcases mem_insert he with rfl | he
        · exact hgt
        · exact hfirst entry he

/-! ## Look-up -/

theorem Ordered.find?_eq_some_iff (h : Ordered entries) :
    find? key entries = some value ↔ (key, value) ∈ entries :=
  lookup_eq_some_iff_of_nodup h.nodup

theorem mem_keys_iff : key ∈ entries.map Prod.fst ↔ (find? key entries).isSome = true := by
  induction entries with
  | nil => simp [find?]
  | cons entry rest ih =>
    rw [find?_cons, List.map_cons, List.mem_cons, ih]
    split
    · next h => simp [h]
    · next h => simp [h]

theorem find?_eq_none_of_not_mem (h : key ∉ entries.map Prod.fst) : find? key entries = none :=
  Option.not_isSome_iff_eq_none.1 (mt mem_keys_iff.2 h)

theorem find?_concat (key : String) (entries : List (String × α)) (entry : String × α) :
    find? key (entries ++ [entry]) =
      (find? key entries).or (if key = entry.1 then some entry.2 else none) := by
  unfold find?
  rw [List.lookup_append]
  exact congrArg _ (find?_cons key entry [])

theorem find?_map (f : α → β) (key : String) (entries : List (String × α)) :
    find? key (entries.map fun entry => (entry.1, f entry.2)) = (find? key entries).map f := by
  induction entries with
  | nil => rfl
  | cons entry rest ih =>
    rw [List.map_cons, find?_cons, find?_cons, ih]
    split <;> rfl

/-- Both lists have the same entries, in the one order that there is. -/
theorem Ordered.ext (h : Ordered entries) (ho : Ordered others)
    (hf : ∀ key, find? key entries = find? key others) : entries = others := by
  have hmem : ∀ entry, entry ∈ entries ↔ entry ∈ others := by
    intro entry
    rw [← h.find?_eq_some_iff, ← ho.find?_eq_some_iff, hf]
  have hperm : entries.Perm others :=
    (List.perm_ext_iff_of_nodup h.nodup.of_map ho.nodup.of_map).2 hmem
  exact hperm.eq_of_pairwise (fun _ _ _ _ hab hba => absurd hba (precedes_asymm hab)) h ho

/-! ## Lists of pairs -/

theorem ofList_concat (pairs : List (String × α)) (pair : String × α) :
    ofList (pairs ++ [pair]) = Keyed.insert pair.1 pair.2 (ofList pairs) := by
  unfold ofList
  rw [List.foldl_append]
  rfl

theorem ordered_ofList (pairs : List (String × α)) : Ordered (ofList pairs) := by
  induction pairs using List.reverseRecOn with
  | nil => exact List.Pairwise.nil
  | append_singleton pairs pair ih =>
    rw [ofList_concat]
    exact ih.insert pair.1 pair.2

theorem mem_of_mem_ofList {pairs : List (String × α)} {entry : String × α}
    (h : entry ∈ ofList pairs) : entry ∈ pairs := by
  induction pairs using List.reverseRecOn with
  | nil => cases h
  | append_singleton pairs pair ih =>
    rw [ofList_concat] at h
    rw [List.mem_append, List.mem_singleton]
    exact (mem_insert h).elim Or.inr fun hm => Or.inl (ih hm)

/-- The last of equal keys stands. -/
theorem find?_ofList (key : String) (pairs : List (String × α)) :
    find? key (ofList pairs) = pairs.reverse.lookup key := by
  induction pairs using List.reverseRecOn with
  | nil => rfl
  | append_singleton pairs pair ih =>
    rw [ofList_concat, find?_insert, ih, List.reverse_append, List.reverse_singleton,
      List.singleton_append]
    exact (find?_cons key pair pairs.reverse).symm

/-- An ordered list is the ordered list of its entries. -/
theorem Ordered.ofList_eq (h : Ordered entries) : ofList entries = entries := by
  refine (ordered_ofList entries).ext h fun key => ?_
  have hn : (entries.reverse.map Prod.fst).Nodup := by
    rw [List.map_reverse, List.nodup_reverse]
    exact h.nodup
  refine Option.ext fun value => ?_
  rw [find?_ofList, lookup_eq_some_iff_of_nodup hn, List.mem_reverse, h.find?_eq_some_iff]

theorem insert_map (f : α → β) (key : String) (value : α) (entries : List (String × α)) :
    Keyed.insert key (f value) (entries.map fun entry => (entry.1, f entry.2)) =
      (Keyed.insert key value entries).map fun entry => (entry.1, f entry.2) := by
  induction entries with
  | nil => rfl
  | cons entry rest ih =>
    rw [List.map_cons, Keyed.insert, Keyed.insert, ih]
    split
    · rfl
    · split <;> rfl

theorem ofList_map (f : α → β) (pairs : List (String × α)) :
    ofList (pairs.map fun pair => (pair.1, f pair.2)) =
      (ofList pairs).map fun pair => (pair.1, f pair.2) := by
  induction pairs using List.reverseRecOn with
  | nil => rfl
  | append_singleton pairs pair ih =>
    rw [List.map_append, List.map_singleton, ofList_concat, ofList_concat, ih]
    exact insert_map f pair.1 pair.2 (ofList pairs)

end ArrayStore.Keyed
