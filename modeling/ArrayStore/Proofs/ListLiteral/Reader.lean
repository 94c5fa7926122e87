import ArrayStore.ListLiteral.Parser
import ArrayStore.ListLiteral.Printer
import Mathlib.Data.List.Forall2

/-!
# Reading what stands between brackets

* `readEntries_eq` : the reader, one entry and one comma at a time;
* `readQuoted_backslash`, `readQuoted_delimiter`, `readQuoted_cons` : a quoted string, one
  character at a time;
* `Closes` : a text at which an entry ends, the end or a comma;
* `ReadsAs` : a written entry that the reader takes back whole, whatever closes it;
  `readsAs_of_readQuoted` : such is a quoted string whose end the reader finds;
* `readEntries_join` : such entries, joined, read back one by one;
* `parse_bracket` : the same for a whole literal.
-/

namespace ArrayStore.ListLiteral
open Text

/-! ## The reader -/

theorem readEntries_eq (s : List Char) :
    readEntries s =
      match trimLeft s with
      | [] => some []
      | c :: tail =>
        (readEntry c tail).bind fun read =>
          match trimLeft read.2 with
          | [] => some [read.1]
          | d :: rest => if d = ',' then (readEntries rest).map (read.1 :: ·) else none := by
  rw [readEntries]
  split
  · next h => simp only [h]
  · next c tail h =>
    simp only [h]
    split
    · next he => rw [he, Option.bind_none]
    · next entry after he =>
      rw [he, Option.bind_some]
      split
      · next ha => simp only [ha]
      · next d rest ha => simp only [ha]

theorem readEntries_nil : readEntries [] = some [] := by
  rw [readEntries_eq]
  rfl

theorem readEntries_cons_of_blank {c : Char} {s : List Char} (h : isBlank c = true) :
    readEntries (c :: s) = readEntries s := by
  rw [readEntries_eq, trimLeft_cons_of_blank h, ← readEntries_eq]

/-! ## Quoted strings -/

theorem readQuoted_backslash (delimiter c : Char) (rest : List Char) :
    readQuoted delimiter ('\\' :: c :: rest) =
      (readQuoted delimiter rest).map fun read => (unescape c :: read.1, read.2) := rfl

theorem readQuoted_delimiter {delimiter : Char} (h : delimiter ≠ '\\') (rest : List Char) :
    readQuoted delimiter (delimiter :: rest) = some ([], rest) := by
  rw [readQuoted.eq_def]
  split <;> simp_all

theorem readQuoted_cons {delimiter c : Char} (hb : c ≠ '\\') (hd : c ≠ delimiter)
    (rest : List Char) :
    readQuoted delimiter (c :: rest) =
      (readQuoted delimiter rest).map fun read => (c :: read.1, read.2) := by
  rw [readQuoted.eq_def]
  split <;> simp_all

theorem ne_backslash_of_isQuote {c : Char} (h : isQuote c = true) : c ≠ '\\' := by
  rintro rfl
  exact absurd h (by decide)

theorem isBlank_of_isQuote {c : Char} (h : isQuote c = true) : isBlank c = false := by
  unfold isQuote at h
  rw [Bool.or_eq_true, decide_eq_true_eq, decide_eq_true_eq] at h
  rcases h with rfl | rfl <;> decide

/-! ## Written entries -/

/-- An entry ends here. -/
def Closes (rest : List Char) : Prop := rest = [] ∨ ∃ tail, rest = ',' :: tail

/-- The reader takes the written entry back whole, wherever an entry can end behind it. -/
def ReadsAs (written : List Char) (entry : Entry) : Prop :=
  ∃ c tail, written = c :: tail ∧ isBlank c = false ∧
    ∀ rest, Closes rest → readEntry c (tail ++ rest) = some (entry, rest)

/-- A string between its delimiters, if the reader finds its end. -/
theorem readsAs_of_readQuoted {delimiter : Char} (h : isQuote delimiter = true)
    {body text : List Char}
    (hread : ∀ rest, readQuoted delimiter (body ++ delimiter :: rest) = some (text, rest)) :
    ReadsAs (delimiter :: body ++ [delimiter]) (.quoted text) := by
  refine ⟨delimiter, body ++ [delimiter], rfl, isBlank_of_isQuote h, fun rest _ => ?_⟩
  unfold readEntry
  rw [if_pos h, List.append_assoc, List.singleton_append, hread, Option.map_some]

theorem readEntries_of_readsAs {written : List Char} {entry : Entry} (h : ReadsAs written entry) :
    readEntries written = some [entry] := by
  obtain ⟨c, tail, rfl, hc, hr⟩ := h
  have hr := hr [] (Or.inl rfl)
  rw [List.append_nil] at hr
  rw [readEntries_eq, trimLeft_cons_of_not_blank hc]
  simp only [hr, Option.bind_some]
  rfl

theorem readEntries_of_readsAs_comma {written : List Char} {entry : Entry}
    (h : ReadsAs written entry) (rest : List Char) :
    readEntries (written ++ ',' :: rest) = (readEntries rest).map (entry :: ·) := by
  obtain ⟨c, tail, rfl, hc, hr⟩ := h
  have hr := hr (',' :: rest) (Or.inr ⟨rest, rfl⟩)
  rw [readEntries_eq, List.cons_append, trimLeft_cons_of_not_blank hc]
  simp only [hr, Option.bind_some, trimLeft_cons_of_not_blank (show isBlank ',' = false by decide),
    if_true]

/-- Entries are read in turn; the blank behind each comma is dropped. -/
theorem readEntries_join {written : List (List Char)} {entries : List Entry}
    (h : List.Forall₂ ReadsAs written entries) : readEntries (join written) = some entries := by
  induction h with
  | nil => exact readEntries_nil
  | @cons first entry others entries hf ho ih =>
    cases others with
    | nil =>
      cases ho
      exact readEntries_of_readsAs hf
    | cons second others =>
      have hj : join (first :: second :: others) =
          first ++ ',' :: ' ' :: join (second :: others) := by
        rw [join, List.append_assoc, List.cons_append, List.singleton_append]
        exact List.cons_ne_nil second others
      rw [hj, readEntries_of_readsAs_comma hf,
        readEntries_cons_of_blank (show isBlank ' ' = true by decide), ih, Option.map_some]

/-! ## Whole literals -/

theorem inner?_bracket (written : List (List Char)) :
    inner? (bracket written) = some (join written) := by
  unfold inner? bracket
  rw [trim_of_not_blank (by decide) (by decide)]
  simp

theorem entries?_bracket {written : List (List Char)} {entries : List Entry}
    (h : List.Forall₂ ReadsAs written entries) :
    entries? (String.ofList (bracket written)) = some entries := by
  unfold entries?
  rw [String.toList_ofList, inner?_bracket, Option.bind_some, readEntries_join h]

theorem parse_bracket {written : List (List Char)} {entries : List Entry}
    (h : List.Forall₂ ReadsAs written entries) :
    parse (String.ofList (bracket written)) = some (entries.map Entry.text?) := by
  unfold parse
  rw [entries?_bracket h, Option.map_some]

end ArrayStore.ListLiteral
