import ArrayStore.Proofs.ListLiteral.Reader

/-!
# A written list reads back

* `readQuoted_escapeChar` : reading undoes the escape of one character;
* `readQuoted_escaped` : and, by induction, of a whole text up to its closing quote;
* `readsAs_quote`, `readsAs_quotes` : a text in quotes reads back as a quoted entry;
* `parse_render` : a list of texts reads back.
-/

namespace ArrayStore.ListLiteral
open Text

/-! ## Quoted texts -/

theorem unescape_of_ne {c : Char} (hn : c ≠ 'n') (ht : c ≠ 't') : unescape c = c := by
  unfold unescape
  rw [if_neg hn, if_neg ht]

/-- The delimiter is no letter, so behind a backslash it stands for itself. -/
theorem unescape_of_isQuote {c : Char} (h : isQuote c = true) : unescape c = c := by
  apply unescape_of_ne <;> rintro rfl <;> exact absurd h (by decide)

/-- An escaped character is read as the character, and the rest goes on. -/
theorem readQuoted_escapeChar {delimiter : Char} (h : isQuote delimiter = true) (c : Char)
    (rest : List Char) :
    readQuoted delimiter (escapeChar delimiter c ++ rest) =
      (readQuoted delimiter rest).map fun read => (c :: read.1, read.2) := by
  unfold escapeChar
  split_ifs with hb hn ht hd
  · subst hb
    exact readQuoted_backslash delimiter '\\' rest
  · subst hn
    exact readQuoted_backslash delimiter 'n' rest
  · subst ht
    exact readQuoted_backslash delimiter 't' rest
  · subst hd
    rw [List.cons_append, List.singleton_append, readQuoted_backslash, unescape_of_isQuote h]
  · exact readQuoted_cons hb hd rest

theorem readQuoted_escaped {delimiter : Char} (h : isQuote delimiter = true)
    (text rest : List Char) :
    readQuoted delimiter (text.flatMap (escapeChar delimiter) ++ delimiter :: rest) =
      some (text, rest) := by
  induction text with
  | nil => exact readQuoted_delimiter (ne_backslash_of_isQuote h) rest
  | cons c text ih =>
    rw [List.flatMap_cons, List.append_assoc, readQuoted_escapeChar h, ih, Option.map_some]

/-! ## Lists of texts -/

theorem isQuote_delimiterOf (text : List Char) : isQuote (delimiterOf text) = true := by
  unfold delimiterOf
  split <;> decide

theorem readsAs_quote (text : List Char) : ReadsAs (quote text) (.quoted text) :=
  readsAs_of_readQuoted (isQuote_delimiterOf text)
    (readQuoted_escaped (isQuote_delimiterOf text) text)

theorem readsAs_quotes (texts : List String) :
    List.Forall₂ ReadsAs (texts.map fun text => quote text.toList)
      (texts.map fun text => Entry.quoted text.toList) := by
  rw [List.forall₂_map_left_iff, List.forall₂_map_right_iff, List.forall₂_same]
  intro text _
  exact readsAs_quote text.toList

/-- Whatever the texts hold, they read back in order, each of them as a text. -/
theorem parse_render (texts : List String) : parse (render texts) = some (texts.map some) := by
  unfold render
  rw [parse_bracket (readsAs_quotes texts), List.map_map]
  congr 1
  apply List.map_congr_left
  intro text _
  show some (String.ofList text.toList) = some text
  rw [String.ofList_toList]

end ArrayStore.ListLiteral
