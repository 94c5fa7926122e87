import ArrayStore.Toml.Comparison
import ArrayStore.Toml.Lexical

/-!
# TOML documents

* `Toml.readValue` : a value, arrays and inline tables included;
* `Toml.Line`, `Toml.readLine` : the lines of a document: keys with values, and headers;
* `Toml.Progress` : the document so far and the header that keys belong to;
* `Toml.read?` : the table that a text holds.
-/

namespace ArrayStore.Toml
open Text

/-! ## Values -/

def skipLines (s : List Char) : List Char :=
  match _h : skipComment (skipBlank s) with
  | '\n' :: rest => skipLines rest
  | '\r' :: '\n' :: rest => skipLines rest
  | s => s
termination_by s.length
decreasing_by
  all_goals
    have h₁ : (skipBlank s).length ≤ s.length := (List.dropWhile_suffix isInline).length_le
    have h₂ : ∀ t : List Char, (skipComment t).length ≤ t.length := by
      intro t
      unfold skipComment
      split
      · have := (List.dropWhile_suffix (l := ‹List Char›) isPlain).length_le
        simp only [List.length_cons]; omega
      · simp
    have h₃ := h₂ (skipBlank s)
    rw [_h] at h₃
    simp only [List.length_cons] at h₃
    omega

def inlineTable? (pairs : List (List String × Value)) : Option Value :=
  let table : Option Table := pairs.foldlM (fun t (key, value) => t.insert? key value) {}
  table.map fun t => .table t.finish

mutual

/-- Reads a value. `fuel` bounds the calls and `depth` the nesting that is left. -/
def readValue (fuel depth : Nat) (s : List Char) : Option (Value × List Char) :=
  match fuel with
  | 0 => none
  | fuel + 1 =>
    match s with
    | [] => none
    | c :: rest =>
      if c = '"' || c = '\x27' then
        (readStringValue s).map fun (text, rest) => (.string text, rest)
      else if c = '[' then
        match depth with
        | 0 => none
        | depth + 1 =>
          match skipLines rest with
          | ']' :: rest => some (.array [], rest)
          | rest => (readItems fuel depth rest).map fun (items, rest) => (.array items, rest)
      else if c = '\x7b' then
        match depth with
        | 0 => none
        | depth + 1 =>
          match skipBlank rest with
          | '\x7d' :: rest => some (.table [], rest)
          | rest => do
            let (pairs, rest) ← readPairs fuel depth rest
            let table ← inlineTable? pairs
            return (table, rest)
      else if c = 't' then (expect "rue".toList rest).map (.bool true, ·)
      else if c = 'f' then (expect "alse".toList rest).map (.bool false, ·)
      else
        match readDateTime s with
        | some read => some read
        | none => readNumber s

/-- Reads the items of an array, one at least, and the closing bracket. -/
def readItems (fuel depth : Nat) (s : List Char) : Option (List Value × List Char) :=
  match fuel with
  | 0 => none
  | fuel + 1 =>
    match readValue fuel depth s with
    | none => none
    | some (item, rest) =>
      match skipLines rest with
      | ']' :: rest => some ([item], rest)
      | ',' :: rest =>
        match skipLines rest with
        | ']' :: rest => some ([item], rest)
        | rest => (readItems fuel depth rest).map fun (items, rest) => (item :: items, rest)
      | _ => none

/-- Reads the keys and values of an inline table, one at least, and the closing brace. -/
def readPairs (fuel depth : Nat) (s : List Char) :
    Option (List (List String × Value) × List Char) :=
  match fuel with
  | 0 => none
  | fuel + 1 =>
    match readKey s with
    | some (key, '=' :: rest) =>
      match readValue fuel depth (skipBlank rest) with
      | none => none
      | some (value, rest) =>
        match skipBlank rest with
        | '\x7d' :: rest => some ([(key, value)], rest)
        | ',' :: rest =>
          (readPairs fuel depth rest).map fun (pairs, rest) => ((key, value) :: pairs, rest)
        | _ => none
    | _ => none

end

/-! ## Lines -/

inductive Line where
  /-- A blank line or a comment. -/
  | blank
  /-- A value at a dotted key. -/
  | pair (key : List String) (value : Value)
  /-- The header of a table. -/
  | table (key : List String)
  /-- The header of an element of an array of tables. -/
  | element (key : List String)
  deriving DecidableEq, Repr, Inhabited

/-- Reads a header behind its opening brackets. -/
def readHeader (s : List Char) : Option (Line × List Char) :=
  match s with
  | '[' :: rest =>
    match readKey rest with
    | some (key, ']' :: ']' :: rest) => some (.element key, rest)
    | _ => none
  | rest =>
    match readKey rest with
    | some (key, ']' :: rest) => some (.table key, rest)
    | _ => none

def readLine (s : List Char) : Option (Line × List Char) := do
  match skipBlank s with
  | '[' :: rest => do
    let (line, rest) ← readHeader rest
    let rest ← readLineEnd rest
    return (line, rest)
  | s =>
    match readLineEnd s with
    | some rest => return (.blank, rest)
    | none =>
      match readKey s with
      | some (key, '=' :: rest) => do
        let (value, rest) ← readValue (2 * rest.length + 2) (depthLimit - 1) (skipBlank rest)
        let rest ← readLineEnd rest
        return (.pair key value, rest)
      | _ => none

/-- Reads all lines; `fuel` bounds their number. -/
def readLines (fuel : Nat) (s : List Char) : Option (List Line) :=
  match fuel, s with
  | _, [] => some []
  | 0, _ :: _ => none
  | fuel + 1, s => do
    let (line, rest) ← readLine s
    let lines ← readLines fuel rest
    return line :: lines

/-! ## Documents -/

/-- The document so far, and the header that the keys belong to. -/
structure Progress where
  root : Table := {}
  header : List String := []
  deriving Repr, Inhabited

def Progress.add? (p : Progress) : Line → Option Progress
  | .blank => some p
  | .table header => (p.root.openTable? header).map (⟨·, header⟩)
  | .element header => (p.root.openElement? header).map (⟨·, header⟩)
  | .pair key value =>
    (p.root.update? false (fun t => t.insert? key value) p.header).map (⟨·, p.header⟩)

/-- The text without a byte order mark in front. -/
def skipMark : List Char → List Char
  | c :: rest => if c.toNat = 0xfeff then rest else c :: rest
  | [] => []

def read? (text : String) : Option (List (String × Value)) := do
  let s := skipMark text.toList
  let lines ← readLines s.length s
  let p ← lines.foldlM Progress.add? {}
  return p.root.finish

end ArrayStore.Toml
