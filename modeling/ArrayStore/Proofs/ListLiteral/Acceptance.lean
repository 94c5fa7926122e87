import ArrayStore.Proofs.ListLiteral.Unambiguous

/-!
# The reader accepts exactly its grammar

* `inner?_eq_some_iff` : what stands between the brackets, and the blanks around them;
* `entries?_eq_some_iff` : a text is read exactly if it has a derivation;
* `parse_eq_some_iff_derivation` : the values are those of the derivation, which is the only one.
-/

namespace ArrayStore.ListLiteral
open Text

/-! ## The brackets -/

/-- The blanks around a literal are dropped, and then its brackets. -/
theorem inner?_eq_some_iff {text inner : List Char} :
    inner? text = some inner ↔
      ∃ before after : Blanks, before.chars ++ '[' :: inner ++ ']' :: after.chars = text := by
  constructor
  · intro h
    obtain ⟨before, after, ht⟩ := exists_blanks_append_trim text
    unfold inner? at h
    split at h
    · next rest hr =>
      split at h
      · next hl =>
        obtain ⟨ys, rfl⟩ := List.getLast?_eq_some_iff.1 hl
        cases h
        refine ⟨before, after, ?_⟩
        rw [← ht, hr, List.dropLast_concat]
        simp
      · cases h
    · cases h
  · rintro ⟨before, after, rfl⟩
    have hassoc : before.chars ++ '[' :: inner ++ ']' :: after.chars =
        before.chars ++ ('[' :: inner ++ [']'] ++ after.chars) := by simp
    unfold inner?
    rw [hassoc, Blanks.trim_append (by decide) (by decide)]
    simp

/-! ## Whole texts -/

theorem entries?_eq_some_iff {text : String} {entries : List Entry} :
    entries? text = some entries ↔
      ∃ l : Literal, l.written = text.toList ∧ l.items.toList.map Item.entry = entries := by
  unfold entries?
  rw [Option.bind_eq_some_iff]
  constructor
  · rintro ⟨inner, hi, he⟩
    obtain ⟨before, after, ht⟩ := inner?_eq_some_iff.1 hi
    obtain ⟨items, rfl, hitems⟩ := exists_items_of_readEntries he
    exact ⟨⟨before, items, after⟩, ht, hitems⟩
  · rintro ⟨l, hl, rfl⟩
    exact ⟨l.items.written, inner?_eq_some_iff.2 ⟨l.before, l.after, hl⟩,
      readEntries_written l.items⟩

theorem Literal.values_eq (l : Literal) :
    l.values = (l.items.toList.map Item.entry).map Entry.text? := by
  rw [Literal.values, List.map_map]
  exact List.map_congr_left fun item _ => item.text?_entry.symm

/-- A text is a list literal exactly if the grammar derives it, and its values are those of the
derivation. No text has two. -/
theorem parse_eq_some_iff_derivation :
    Function.Injective Literal.written ∧ ∀ text values,
      parse text = some values ↔ ∃ l : Literal, l.written = text.toList ∧ l.values = values := by
  refine ⟨Literal.written_injective, fun text values => ?_⟩
  unfold parse
  rw [Option.map_eq_some_iff]
  constructor
  · rintro ⟨entries, he, rfl⟩
    obtain ⟨l, hl, rfl⟩ := entries?_eq_some_iff.1 he
    exact ⟨l, hl, l.values_eq⟩
  · rintro ⟨l, hl, rfl⟩
    exact ⟨_, entries?_eq_some_iff.2 ⟨l, hl, rfl⟩, l.values_eq.symm⟩

end ArrayStore.ListLiteral
