import ArrayStore.ListLiteral.Printer

/-!
# List literals: reading

* `ListLiteral.Entry` : an entry of a literal, quoted or bare;
* `ListLiteral.readQuoted`, `ListLiteral.readBare` : the two kinds of entries;
* `ListLiteral.entries?` : the entries of a text that is a literal;
* `ListLiteral.parse` : the same with the bare token `None` as no text.
-/

namespace ArrayStore.ListLiteral
open Text

inductive Entry where
  /-- The text that a quoted string stands for. -/
  | quoted (text : List Char)
  /-- A token outside quotes, without the blanks around it. -/
  | bare (token : List Char)
  deriving DecidableEq, Repr

/-- The character that stands behind a backslash: `n` and `t` name a line feed and a tab, any
other character stands for itself. -/
def unescape (c : Char) : Char :=
  if c = 'n' then '\n' else if c = 't' then '\t' else c

/-- Reads a string up to its closing delimiter, and gives the text after it. -/
def readQuoted (delimiter : Char) : List Char → Option (List Char × List Char)
  | [] => none
  | ['\\'] => none
  | '\\' :: c :: rest =>
    (readQuoted delimiter rest).map fun (text, rest) => (unescape c :: text, rest)
  | c :: rest =>
    if c = delimiter then some ([], rest)
    else (readQuoted delimiter rest).map fun (text, rest) => (c :: text, rest)

/-- The bracket depth behind a character; it does not fall below zero. -/
def depthAfter (depth : Nat) (c : Char) : Nat :=
  if c = '[' || c = '(' then depth + 1
  else if c = ']' || c = ')' then depth - 1
  else depth

/-- Splits before the first comma at depth zero. -/
def readBare (depth : Nat) : List Char → List Char × List Char
  | [] => ([], [])
  | c :: rest =>
    if c = ',' && depth == 0 then ([], c :: rest)
    else
      let (token, rest) := readBare (depthAfter depth c) rest
      (c :: token, rest)

def isQuote (c : Char) : Bool := c = apostrophe || c = '"'

/-- Reads the entry that starts with `c`. -/
def readEntry (c : Char) (rest : List Char) : Option (Entry × List Char) :=
  if isQuote c then
    (readQuoted c rest).map fun (text, rest) => (.quoted text, rest)
  else
    let (token, rest) := readBare 0 (c :: rest)
    some (.bare (trimRight token), rest)

theorem length_le_of_readQuoted {delimiter : Char} {s text rest : List Char}
    (h : readQuoted delimiter s = some (text, rest)) : rest.length ≤ s.length := by
  fun_induction readQuoted delimiter s generalizing text rest with
  | case1 | case2 => simp at h
  | case3 c s ih =>
    obtain ⟨⟨t, r⟩, hr, he⟩ := Option.map_eq_some_iff.1 h
    simp only [Prod.mk.injEq] at he
    have := ih hr
    simp only [List.length_cons, ← he.2]; omega
  | case4 s => simp only [Option.some.injEq, Prod.mk.injEq] at h; simp [← h.2]
  | case5 c s _ _ _ ih =>
    obtain ⟨⟨t, r⟩, hr, he⟩ := Option.map_eq_some_iff.1 h
    simp only [Prod.mk.injEq] at he
    have := ih hr
    simp only [List.length_cons, ← he.2]; omega

theorem length_readBare_le (depth : Nat) (s : List Char) :
    (readBare depth s).2.length ≤ s.length := by
  fun_induction readBare depth s with
  | case1 => simp
  | case2 => simp
  | case3 depth c rest _ token rest' h ih =>
    simp only [h] at ih
    simp only [List.length_cons]; omega

theorem length_le_of_readEntry {c : Char} {s rest : List Char} {entry : Entry}
    (h : readEntry c s = some (entry, rest)) : rest.length ≤ s.length + 1 := by
  unfold readEntry at h
  split at h
  · obtain ⟨⟨t, r⟩, hr, he⟩ := Option.map_eq_some_iff.1 h
    simp only [Prod.mk.injEq] at he
    have := length_le_of_readQuoted hr
    simp only [← he.2]; omega
  · have := length_readBare_le 0 (c :: s)
    simp only [Option.some.injEq, Prod.mk.injEq] at h
    simp only [List.length_cons] at this
    simp only [← h.2]; omega

/-- Reads the entries between the brackets. A comma may stand behind the last one. -/
def readEntries (s : List Char) : Option (List Entry) :=
  match _hs : trimLeft s with
  | [] => some []
  | c :: tail =>
    match _he : readEntry c tail with
    | none => none
    | some (entry, after) =>
      match _ha : trimLeft after with
      | [] => some [entry]
      | d :: rest => if d = ',' then (readEntries rest).map (entry :: ·) else none
termination_by s.length
decreasing_by
  have h₁ := length_trimLeft_le s
  have h₂ := length_le_of_readEntry _he
  have h₃ := length_trimLeft_le after
  rw [_hs, List.length_cons] at h₁
  rw [_ha, List.length_cons] at h₃
  omega

/-- What stands between the brackets of a text, blanks around it dropped. -/
def inner? (text : List Char) : Option (List Char) :=
  match trim text with
  | '[' :: rest => if rest.getLast? = some ']' then some rest.dropLast else none
  | _ => none

/-- The entries of a text, if it is a list literal. -/
def entries? (text : String) : Option (List Entry) :=
  (inner? text.toList).bind readEntries

/-- The text of an entry; the bare token `None` is none. -/
def Entry.text? : Entry → Option String
  | .quoted text => some (String.ofList text)
  | .bare token => if token = "None".toList then none else some (String.ofList token)

/-- The texts of a list literal; other bare tokens are kept as they are. -/
def parse (text : String) : Option (List (Option String)) :=
  (entries? text).map fun entries => entries.map Entry.text?

end ArrayStore.ListLiteral
