import ArrayStore.Text.Order

/-!
# Lists ordered by key

Objects of a document, and the instruments and parameters of a snapshot, are lists of key and
value in which the keys ascend strictly.

* `Keyed.Ordered` : the keys ascend strictly;
* `Keyed.find?`, `Keyed.insert`, `Keyed.erase` : look a key up; put a value at a key, in the place
  of an older one; drop a key;
* `Keyed.ofList` : the ordered list of a list of pairs, in which the last of equal keys stands.
-/

namespace ArrayStore.Keyed

/-- The keys ascend strictly. -/
def Ordered {α : Type} (entries : List (String × α)) : Prop :=
  entries.Pairwise fun a b => Text.precedes a.1 b.1 = true

def find? {α : Type} (key : String) (entries : List (String × α)) : Option α :=
  entries.lookup key

def insert {α : Type} (key : String) (value : α) : List (String × α) → List (String × α)
  | [] => [(key, value)]
  | entry :: rest =>
    if Text.precedes key entry.1 then (key, value) :: entry :: rest
    else if key = entry.1 then (key, value) :: rest
    else entry :: insert key value rest

def erase {α : Type} (key : String) (entries : List (String × α)) : List (String × α) :=
  entries.filter fun entry => entry.1 != key

/-- Puts all pairs in turn, so that the last of equal keys stands. -/
def ofList {α : Type} (pairs : List (String × α)) : List (String × α) :=
  pairs.foldl (fun entries pair => insert pair.1 pair.2 entries) []

theorem find?_cons {α : Type} (key : String) (entry : String × α) (rest : List (String × α)) :
    find? key (entry :: rest) = if key = entry.1 then some entry.2 else find? key rest := by
  unfold find?
  rw [List.lookup_cons]
  by_cases h : key = entry.1
  · rw [if_pos h, h, beq_self_eq_true]
  · rw [if_neg h, beq_false_of_ne h]

theorem find?_insert {α : Type} (key other : String) (value : α) (entries : List (String × α)) :
    find? other (insert key value entries) =
      if other = key then some value else find? other entries := by
  induction entries with
  | nil => rw [insert, find?_cons]
  | cons entry rest ih =>
    rw [insert]
    split
    · rw [find?_cons]
    · split
      · next h =>
        rw [find?_cons, find?_cons, ← h]
        split <;> rfl
      · next h =>
        rw [find?_cons, find?_cons, ih]
        by_cases ho : other = entry.1
        · have hne : other ≠ key := fun hk => h (hk.symm.trans ho)
          rw [if_pos ho, if_neg hne, if_pos ho]
        · rw [if_neg ho, if_neg ho]

theorem find?_erase {α : Type} (key other : String) (entries : List (String × α)) :
    find? other (erase key entries) = if other = key then none else find? other entries := by
  induction entries with
  | nil => exact (ite_self none).symm
  | cons entry rest ih =>
    unfold erase
    rw [List.filter_cons]
    split
    · next h =>
      rw [find?_cons, find?_cons]
      by_cases ho : other = entry.1
      · rw [if_pos ho, if_pos ho, if_neg (ho ▸ bne_iff_ne.1 h)]
      · rw [if_neg ho, if_neg ho]
        exact ih
    · next h =>
      have hkey : entry.1 = key := by simpa using h
      rw [find?_cons, hkey]
      refine ih.trans ?_
      split <;> rfl

end ArrayStore.Keyed
