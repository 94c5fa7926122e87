import ArrayStore.Double.Nearest
import ArrayStore.Text.Escape
import ArrayStore.Text.Scan
import ArrayStore.Toml.Value

/-!
# Keys, strings, numbers and dates of a TOML document

* `Toml.skipBlank`, `Toml.readNewline`, `Toml.readLineEnd` : blanks, line ends and comments;
* `Toml.readKey` : a dotted key;
* `Toml.readStringValue` : the four kinds of strings;
* `Toml.readNumber`, `Toml.readDateTime` : numbers, dates and times.
-/

namespace ArrayStore.Toml
open Text

/-! ## Blanks and lines -/

def isInline (c : Char) : Bool := c = ' ' || c = '\t'

def skipBlank (s : List Char) : List Char := s.dropWhile isInline

def readNewline : List Char → Option (List Char)
  | '\n' :: rest => some rest
  | '\r' :: '\n' :: rest => some rest
  | _ => none

def skipComment : List Char → List Char
  | '#' :: rest => rest.dropWhile isPlain
  | s => s

/-- Reads blanks and a comment up to the end of the line or of the text. -/
def readLineEnd (s : List Char) : Option (List Char) :=
  match skipComment (skipBlank s) with
  | [] => some []
  | s => readNewline s

/-! ## Strings -/

/-- Reads an escape behind its backslash. -/
def readEscape : List Char → Option (Char × List Char)
  | 'u' :: a :: b :: c :: d :: rest => (charOfCode? [a, b, c, d]).map (·, rest)
  | 'U' :: a :: b :: c :: d :: e :: f :: g :: h :: rest =>
    (charOfCode? [a, b, c, d, e, f, g, h]).map (·, rest)
  | c :: rest => (namedEscape? c).map (·, rest)
  | [] => none

theorem length_lt_of_readEscape {s rest : List Char} {c : Char}
    (h : readEscape s = some (c, rest)) : rest.length < s.length := by
  unfold readEscape at h
  split at h
  all_goals simp only [Option.map_eq_some_iff, Prod.mk.injEq, reduceCtorEq] at h
  all_goals obtain ⟨_, _, _, rfl⟩ := h
  all_goals simp only [List.length_cons]; omega

/-- Reads a string on one line, behind its opening double quote. -/
def readBasic (s : List Char) : Option (List Char × List Char) :=
  match s with
  | [] => none
  | '"' :: rest => some ([], rest)
  | '\\' :: rest =>
    match _h : readEscape rest with
    | none => none
    | some (c, rest) => (readBasic rest).map fun (text, rest) => (c :: text, rest)
  | c :: rest =>
    if isPlain c then (readBasic rest).map fun (text, rest) => (c :: text, rest) else none
termination_by s.length
decreasing_by
  · have := length_lt_of_readEscape _h
    simp only [List.length_cons]; omega
  · simp

/-- Reads a literal string on one line, behind its opening single quote. -/
def readLiteral : List Char → Option (List Char × List Char)
  | [] => none
  | c :: rest =>
    if c = '\x27' then some ([], rest)
    else if isPlain c then (readLiteral rest).map fun (text, rest) => (c :: text, rest)
    else none

/-- Reads the quotes that close a string over several lines, and up to two more that belong to
it. -/
def readClosing (quote : Char) (s : List Char) : Option (List Char × List Char) :=
  let run := s.takeWhile (· == quote)
  if run.length < 3 then none
  else
    let taken := min 5 run.length
    some (List.replicate (taken - 3) quote, s.drop taken)

/-- Drops the rest of a line that ends in a backslash, and the blanks and empty lines after it. -/
def readContinuation (s : List Char) : Option (List Char) :=
  (readNewline (skipBlank s)).map dropLines
where
  /-- Drops blanks and line ends. -/
  dropLines : List Char → List Char
    | '\r' :: '\n' :: rest => dropLines rest
    | c :: rest => if c = '\n' || isInline c then dropLines rest else c :: rest
    | [] => []

theorem length_le_of_readNewline {s rest : List Char} (h : readNewline s = some rest) :
    rest.length < s.length := by
  unfold readNewline at h
  split at h
  all_goals simp only [Option.some.injEq, reduceCtorEq] at h
  all_goals subst h; simp only [List.length_cons]; omega

theorem length_dropLines_le (s : List Char) :
    (readContinuation.dropLines s).length ≤ s.length := by
  fun_induction readContinuation.dropLines s with
  | case1 rest ih => simp only [List.length_cons]; omega
  | case2 c rest _ _ ih => simp only [List.length_cons]; omega
  | case3 => simp
  | case4 => simp

theorem length_lt_of_readContinuation {s rest : List Char}
    (h : readContinuation s = some rest) : rest.length < s.length := by
  obtain ⟨r, hr, rfl⟩ := Option.map_eq_some_iff.1 h
  have h₁ := length_le_of_readNewline hr
  have h₂ := length_dropLines_le r
  have h₃ : (skipBlank s).length ≤ s.length := (List.dropWhile_suffix isInline).length_le
  omega

/-- Reads a string over several lines, behind its opening quotes. -/
def readLongBasic (s : List Char) : Option (List Char × List Char) :=
  match s with
  | [] => none
  | '\\' :: rest =>
    match _hc : readContinuation rest with
    | some rest => readLongBasic rest
    | none =>
      match _he : readEscape rest with
      | none => none
      | some (c, rest) => (readLongBasic rest).map fun (text, rest) => (c :: text, rest)
  | '\r' :: rest =>
    match rest with
    | '\n' :: rest => (readLongBasic rest).map fun (text, rest) => ('\n' :: text, rest)
    | _ => none
  | c :: rest =>
    match (if c = '"' then readClosing '"' (c :: rest) else none) with
    | some closed => some closed
    | none =>
      if isPlain c || c = '\n' then
        (readLongBasic rest).map fun (text, rest) => (c :: text, rest)
      else none
termination_by s.length
decreasing_by
  · have := length_lt_of_readContinuation _hc
    simp only [List.length_cons]; omega
  · have := length_lt_of_readEscape _he
    simp only [List.length_cons]; omega
  · simp only [List.length_cons]; omega
  · simp

/-- Reads a literal string over several lines, behind its opening quotes. -/
def readLongLiteral : List Char → Option (List Char × List Char)
  | [] => none
  | '\r' :: '\n' :: rest => (readLongLiteral rest).map fun (text, rest) => ('\n' :: text, rest)
  | c :: rest =>
    match (if c = '\x27' then readClosing c (c :: rest) else none) with
    | some closed => some closed
    | none =>
      if isPlain c || c = '\n' then
        (readLongLiteral rest).map fun (text, rest) => (c :: text, rest)
      else none

/-- Drops a line end behind the opening quotes of a string over several lines. -/
def skipNewline (s : List Char) : List Char := (readNewline s).getD s

def readStringValue (s : List Char) : Option (String × List Char) :=
  let text := match s with
    | '"' :: '"' :: '"' :: rest => readLongBasic (skipNewline rest)
    | '"' :: rest => readBasic rest
    | '\x27' :: '\x27' :: '\x27' :: rest => readLongLiteral (skipNewline rest)
    | '\x27' :: rest => readLiteral rest
    | _ => none
  text.map fun (text, rest) => (String.ofList text, rest)

/-! ## Keys -/

def isKeyChar (c : Char) : Bool := c.isAlphanum || c = '_' || c = '-'

def readKeyPart (s : List Char) : Option (String × List Char) :=
  match s with
  | '"' :: rest => (readBasic rest).map fun (text, rest) => (String.ofList text, rest)
  | '\x27' :: rest => (readLiteral rest).map fun (text, rest) => (String.ofList text, rest)
  | s =>
    match s.span isKeyChar with
    | ([], _) => none
    | (key, rest) => some (String.ofList key, rest)

/-- The deepest nesting of arrays and tables, and the most parts of a key. -/
def depthLimit : Nat := 80

/-- Reads the parts of a key, at most `limit` of them, and the blanks around. -/
def readKeyParts (limit : Nat) (s : List Char) : Option (List String × List Char) :=
  match limit with
  | 0 => none
  | limit + 1 => do
    let (part, rest) ← readKeyPart (skipBlank s)
    match skipBlank rest with
    | '.' :: rest => do
      let (parts, rest) ← readKeyParts limit rest
      return (part :: parts, rest)
    | rest => return ([part], rest)

def readKey (s : List Char) : Option (List String × List Char) := readKeyParts (depthLimit - 1) s

/-! ## Numbers -/

/-- Reads digits with single underscores between them. -/
def readSpaced (isDigit : Char → Bool) : List Char → Option (List Char × List Char)
  | [] => none
  | c :: rest =>
    if isDigit c then
      match rest with
      | '_' :: more => (readSpaced isDigit more).map fun (digits, rest) => (c :: digits, rest)
      | more =>
        match readSpaced isDigit more with
        | some (digits, rest) => some (c :: digits, rest)
        | none => if (more.head?.map isDigit).getD false then none else some ([c], more)
    else none

def readSign : List Char → Bool × List Char
  | '-' :: rest => (true, rest)
  | '+' :: rest => (false, rest)
  | rest => (false, rest)

/-- Reads the digits of a decimal integer: a single zero, or digits that start with no zero. -/
def readWholeDigits (s : List Char) : Option (List Char × List Char) :=
  match s with
  | '0' :: rest => some (['0'], rest)
  | s => readSpaced isDigit s

def readBase (base : Nat) (digits : List Char) : Nat :=
  digits.foldl (fun n c => base * n + (hexValue? c).getD 0) 0

def integer? (i : Int) : Option Value :=
  if Word.isSigned i then some (.integer i) else none

/-- Reads an integer in base 16, 8 or 2 behind its mark. -/
def readInBase (base : Nat) (isDigit : Char → Bool) (s : List Char) :
    Option (Value × List Char) := do
  let (digits, rest) ← readSpaced isDigit s
  let value ← integer? (readBase base digits)
  return (value, rest)

def readFraction (s : List Char) : Option (Option (List Char) × List Char) :=
  match s with
  | '.' :: rest => (readSpaced isDigit rest).map fun (digits, rest) => (some digits, rest)
  | s => some (none, s)

def readExponent (s : List Char) : Option (Option Int × List Char) :=
  match s with
  | c :: rest =>
    if c = 'e' || c = 'E' then do
      let (negative, rest) := readSign rest
      let (digits, rest) ← readSpaced isDigit rest
      let n : Int := readDigits digits
      return (some (if negative then -n else n), rest)
    else some (none, s)
  | [] => some (none, s)

/-- The value of a float; positive infinity is written only as such. -/
def float? (d : Decimal) : Option Value :=
  let value := d.nearest
  if value = Double.infinity false then none else some (.float value)

/-- Reads a decimal integer, or a float, behind its sign. -/
def readDecimal (negative : Bool) (s : List Char) : Option (Value × List Char) := do
  let (whole, rest) ← readWholeDigits s
  let (fraction, rest) ← readFraction rest
  let (exponent, rest) ← readExponent rest
  let value ←
    if fraction.isNone && exponent.isNone then
      let n : Int := readDigits whole
      integer? (if negative then -n else n)
    else float? (.ofDigits negative whole (fraction.getD []) (exponent.getD 0))
  return (value, rest)

def readNumber (s : List Char) : Option (Value × List Char) :=
  match s with
  | '0' :: 'x' :: rest => readInBase 16 isHexDigit rest
  | '0' :: 'o' :: rest => readInBase 8 (fun c => '0' ≤ c && c ≤ '7') rest
  | '0' :: 'b' :: rest => readInBase 2 (fun c => c = '0' || c = '1') rest
  | s =>
    let (negative, unsigned) := readSign s
    match unsigned with
    | 'i' :: 'n' :: 'f' :: rest => some (.float (Double.infinity negative), rest)
    | 'n' :: 'a' :: 'n' :: rest => some (.float Double.nan, rest)
    | unsigned => readDecimal negative unsigned

/-! ## Dates and times -/

/-- Reads a number of exactly `count` digits within bounds. -/
def readField (count low high : Nat) (s : List Char) : Option (Nat × List Char) :=
  let digits := s.take count
  if digits.length = count && digits.all isDigit then
    let n := readDigits digits
    if low ≤ n && n ≤ high then some (n, s.drop count) else none
  else none

def readMark (mark : Char) : List Char → Option (List Char)
  | c :: rest => if c = mark then some rest else none
  | [] => none

def daysOf (year month : Nat) : Nat :=
  if month = 2 then
    if year % 4 = 0 && (year % 100 != 0 || year % 400 = 0) then 29 else 28
  else if month = 4 || month = 6 || month = 9 || month = 11 then 30
  else 31

def readDate (s : List Char) : Option (List Char) := do
  let (year, s) ← readField 4 0 9999 s
  let s ← readMark '-' s
  let (month, s) ← readField 2 1 12 s
  let s ← readMark '-' s
  let (day, s) ← readField 2 1 31 s
  if day ≤ daysOf year month then some s else none

/-- Reads a time of day; a minute may have a leap second. -/
def readTime (s : List Char) : Option (List Char) := do
  let (_, s) ← readField 2 0 23 s
  let s ← readMark ':' s
  let (_, s) ← readField 2 0 59 s
  let s ← readMark ':' s
  let (_, s) ← readField 2 0 60 s
  match s with
  | '.' :: fraction =>
    if (fraction.head?.map isDigit).getD false then return fraction.dropWhile isDigit else return s
  | s => return s

def readOffset (s : List Char) : Option (List Char) :=
  match s with
  | 'Z' :: rest => some rest
  | 'z' :: rest => some rest
  | c :: rest =>
    if c = '+' || c = '-' then do
      let (_, s) ← readField 2 0 23 rest
      let s ← readMark ':' s
      let (_, s) ← readField 2 0 59 s
      return s
    else none
  | [] => none

/-- Reads the time behind a date, if there is one, and its offset. -/
def readTimeOfDate (s : List Char) : List Char :=
  match s with
  | c :: rest =>
    if c = 'T' || c = 't' || c = ' ' then
      match readTime rest with
      | some rest => (readOffset rest).getD rest
      | none => s
    else s
  | [] => s

def readDateTime (s : List Char) : Option (Value × List Char) :=
  let rest := match readDate s with
    | some rest => some (readTimeOfDate rest)
    | none => readTime s
  rest.map fun rest => (.dateTime (String.ofList (s.take (s.length - rest.length))), rest)

end ArrayStore.Toml
