import ArrayStore.Text.Alphanumeric
import ArrayStore.Text.Blank
import ArrayStore.Text.Escape

/-!
# Patterns

A pattern describes texts, as `a+|[^b-d]` does. Here is decided which texts are patterns. The
patterns of a filter end at the first closing brace, so an open brace never finds its partner and
is refused. Classes such as `\d` and the pairs of upper and lower case are known for ASCII only.

* `Pattern.Mode` : the flags in force, and `Pattern.Mode.skip` what they leave out;
* `Pattern.readEscape` : what a backslash begins;
* `Pattern.readClass` : the rest of a class such as `[a-z]`;
* `Pattern.readGroup` : the beginning of a group, or flags such as `(?i)`;
* `Pattern.run` : all items of a pattern, and what was seen of it;
* `Pattern.check` : the fault of a text that is no usable pattern.
-/

namespace ArrayStore.Text.Pattern

/-! ## Flags -/

/-- The flags in force. -/
structure Mode where
  /-- Upper and lower case are the same. -/
  ignoresCase : Bool := false
  /-- The text is matched byte by byte. -/
  isAscii : Bool := false
  /-- Blanks and comments stand between the items. -/
  isVerbose : Bool := false
  deriving DecidableEq, Repr

/-- Drops blanks, and comments up to the end of their line. -/
def skipComments (inComment : Bool) : List Char → List Char
  | [] => []
  | c :: rest =>
    if inComment then skipComments (c != '\n') rest
    else if isBlank c then skipComments false rest
    else if c = '#' then skipComments true rest
    else c :: rest

/-- Drops what the flags leave out between the items. -/
def Mode.skip (m : Mode) (s : List Char) : List Char :=
  if m.isVerbose then skipComments false s else s

/-- A character that stands for itself. In ASCII, an escaped byte above ASCII stands for none. -/
def Mode.allows (m : Mode) (isByte : Bool) : Bool :=
  if m.isAscii then !isByte else !m.ignoresCase

def Mode.set (m : Mode) (on : Bool) : Char → Mode
  | 'i' => { m with ignoresCase := on }
  | 'u' => { m with isAscii := !on }
  | 'x' => { m with isVerbose := on }
  | _ => m

/-- Switches the flags on that stand before the minus, and off those behind it. -/
def Mode.setAll (m : Mode) (flags : List Char) : Mode :=
  let (on, off) := flags.span (· != '-')
  off.foldl (Mode.set · false) (on.foldl (Mode.set · true) m)

/-- Every flag is known and stands once, as does the minus, which ends no flags. -/
def areFlags (flags : List Char) : Bool :=
  flags.all (fun c => "imsUuRx-".toList.contains c) && decide flags.Nodup &&
    flags.getLast? != some '-'

/-! ## Escapes -/

/-- What a backslash begins. -/
inductive Escape where
  /-- A character; `isByte` marks a byte above ASCII by its number. -/
  | char (c : Char) (isByte : Bool)
  /-- A class of digits, blanks or word characters, or the characters outside of it. -/
  | table (negated : Bool)
  /-- The beginning or the end of the text. -/
  | anchor
  /-- The boundary of a word. -/
  | boundary
  deriving DecidableEq, Repr

def readHexDigits (m : Mode) : Nat → List Char → Option (List Char × List Char)
  | 0, s => some ([], s)
  | _ + 1, [] => none
  | count + 1, c :: rest =>
    if isHexDigit c then
      (readHexDigits m count (m.skip rest)).map fun (digits, rest) => (c :: digits, rest)
    else none

def readCode (m : Mode) (count : Nat) (s : List Char) : Option (Char × List Char) := do
  let (digits, rest) ← readHexDigits m count (m.skip s)
  return (← charOfCode? digits, rest)

/-- The control character that a letter names. -/
def control? : Char → Option Char
  | 'a' => some '\x07'
  | 'f' => some '\x0c'
  | 'n' => some '\n'
  | 'r' => some '\r'
  | 't' => some '\t'
  | 'v' => some '\x0b'
  | _ => none

def readEscape (m : Mode) : List Char → Option (Escape × List Char)
  | [] => none
  | 'x' :: rest =>
    (readCode m 2 rest).map fun (c, rest) => (.char c (0x80 ≤ c.toNat), rest)
  | 'u' :: rest => (readCode m 4 rest).map fun (c, rest) => (.char c false, rest)
  | 'U' :: rest => (readCode m 8 rest).map fun (c, rest) => (.char c false, rest)
  | c :: rest =>
    if "dsw".toList.contains c then some (.table false, rest)
    else if "DSW".toList.contains c then some (.table true, rest)
    else if "Az".toList.contains c then some (.anchor, rest)
    else if "bB<>".toList.contains c then some (.boundary, rest)
    else
      match control? c with
      | some control => some (.char control false, rest)
      | none =>
        if c.toNat < 0x80 && !c.isAlphanum then some (.char c false, rest) else none

/-! ## Classes -/

/-- The names of the classes of ASCII characters. -/
def classNames : List String :=
  ["alnum", "alpha", "ascii", "blank", "cntrl", "digit", "graph", "lower", "print", "punct",
    "space", "upper", "word", "xdigit"]

/-- Reads a named class such as `[:alpha:]` behind its bracket, and whether it is negated. -/
def readNamedClass (s : List Char) : Option (Bool × List Char) :=
  match s with
  | ':' :: rest =>
    let (negated, rest) := match rest with
      | '^' :: rest => (true, rest)
      | rest => (false, rest)
    let (name, rest) := rest.span (· != ':')
    match rest with
    | ':' :: ']' :: rest =>
      if classNames.contains (String.ofList name) then some (negated, rest) else none
    | _ => none
  | _ => none

/-- Reads a member of a class: a character, or a class of its own, which bounds no range. -/
def readMember (m : Mode) : List Char → Option (Option Char × List Char)
  | [] => none
  | '\\' :: rest =>
    match readEscape m rest with
    | some (.char c isByte, rest) =>
      if m.allows isByte && (!m.isAscii || c.toNat < 0x80) then some (some c, rest) else none
    | some (.table negated, rest) =>
      if m.isAscii && !negated then some (none, rest) else none
    | _ => none
  | c :: rest => if m.allows (0x80 ≤ c.toNat) then some (some c, rest) else none

/-- Reads a member of a class, or a range of characters. -/
def readRange (m : Mode) (s : List Char) : Option (List Char) := do
  let (low, rest) ← readMember m s
  match m.skip rest with
  | '-' :: behind =>
    match m.skip behind with
    | ']' :: _ | '-' :: _ => return '-' :: behind
    | behind =>
      let (high, rest) ← readMember m behind
      if (← low) ≤ (← high) then return rest else none
  | rest => return rest

/-- Where a reader stands in a class. -/
inductive Place where
  /-- Behind the opening bracket. -/
  | start
  /-- Behind the minus signs at the beginning, which stand for themselves. -/
  | dashes
  /-- Behind the first member. -/
  | inside
  deriving DecidableEq, Repr

/-- Reads the sign of a negated class. It would match bytes that are no text, if not for whole
characters. -/
def readNegation (m : Mode) (s : List Char) : Option (List Char) :=
  match m.skip s with
  | '^' :: rest => if m.isAscii then none else some rest
  | rest => some rest

/-- Reads the rest of a class; `depth` counts the classes around it. `fuel` bounds the steps. -/
def readClass (m : Mode) (fuel depth : Nat) (place : Place) (s : List Char) :
    Option (List Char) :=
  match fuel, m.skip s with
  | 0, _ => none
  | _ + 1, [] => none
  | fuel + 1, c :: rest =>
    if place ≠ .inside && c = '-' then readClass m fuel depth .dashes rest
    else if place = .start && c = ']' then readClass m fuel depth .inside rest
    else
      match c, rest with
      | '[', rest =>
        match readNamedClass rest with
        | some (negated, rest) =>
          if m.isAscii && negated then none else readClass m fuel depth .inside rest
        | none => do readClass m fuel (depth + 1) .start (← readNegation m rest)
      | ']', rest => if depth = 0 then some rest else readClass m fuel (depth - 1) .inside rest
      | '&', '&' :: rest => readClass m fuel depth .inside rest
      | '-', '-' :: rest => readClass m fuel depth .inside rest
      | '~', '~' :: rest => readClass m fuel depth .inside rest
      | c, rest => do readClass m fuel depth .inside (← readRange m (c :: rest))

def readWholeClass (m : Mode) (s : List Char) : Option (List Char) := do
  let rest ← readNegation m s
  if m.ignoresCase && !m.isAscii then none
  else readClass m (s.length + 1) 0 .start rest

/-! ## Groups -/

/-- What an open parenthesis begins. -/
inductive Opening where
  /-- A group, with its name. -/
  | group (name : Option (List Char))
  /-- A group with flags of its own. -/
  | flagged (flags : List Char)
  /-- Flags for the rest of the group around them. -/
  | flags (flags : List Char)
  deriving DecidableEq, Repr

/-- A name starts with a letter or `_`; numbers, dots and brackets may follow. -/
def isName : List Char → Bool
  | [] => false
  | c :: rest =>
    (c = '_' || isAlphabetic c) &&
      rest.all fun c => c = '_' || c = '.' || c = '[' || c = ']' || isAlphanumeric c

/-- Reads the name of a group and the bracket behind it. -/
def readName (s : List Char) : Option (Opening × List Char) :=
  let (name, rest) := s.span (· != '>')
  match rest with
  | _ :: rest => if isName name then some (.group (some name), rest) else none
  | [] => none

def readGroup (s : List Char) : Option (Opening × List Char) :=
  match s with
  | '?' :: 'P' :: '<' :: rest => readName rest
  | '?' :: '<' :: rest => readName rest
  | '?' :: rest =>
    let (flags, rest) := rest.span fun c => c != ':' && c != ')'
    if areFlags flags then
      match rest with
      | ':' :: rest => some (.flagged flags, rest)
      | ')' :: rest => if flags.isEmpty then none else some (.flags flags, rest)
      | _ => none
    else none
  | rest => some (.group none, rest)

/-! ## Patterns -/

/-- What was seen of a pattern. -/
structure Progress where
  mode : Mode := {}
  /-- The flags around each open group. -/
  outer : List Mode := []
  /-- An item stands in front that may be repeated. -/
  isRepeatable : Bool := false
  /-- The names of the groups. -/
  names : List (List Char) := []
  /-- The boundary of a word was asked for, and not in ASCII. -/
  hasBoundary : Bool := false
  deriving DecidableEq, Repr

/-- Goes on behind an item that may be repeated. -/
def Progress.item (p : Progress) : Progress := { p with isRepeatable := true }

/-- Opens a group or sets flags. -/
def Progress.enter (p : Progress) : Opening → Option Progress
  | .group none => some { p with outer := p.mode :: p.outer, isRepeatable := false }
  | .group (some name) =>
    if p.names.contains name then none
    else some { p with outer := p.mode :: p.outer, isRepeatable := false, names := name :: p.names }
  | .flagged flags =>
    some { p with mode := p.mode.setAll flags, outer := p.mode :: p.outer, isRepeatable := false }
  | .flags flags => some { p with mode := p.mode.setAll flags, isRepeatable := false }

def Progress.leave (p : Progress) : Option Progress :=
  match p.outer with
  | [] => none
  | mode :: outer => some { p.item with mode, outer }

/-- Takes an escape outside of a class. -/
def Progress.escape (p : Progress) : Escape → Option Progress
  | .char _ isByte => if p.mode.allows isByte then some p.item else none
  | .table negated => if p.mode.isAscii && !negated then some p.item else none
  | .anchor => some p.item
  | .boundary => some { p.item with hasBoundary := p.hasBoundary || !p.mode.isAscii }

/-- Reads an item that starts with the character `c`. -/
def readItem (p : Progress) (c : Char) (rest : List Char) : Option (Progress × List Char) :=
  match c with
  | '(' => do
    let (opening, rest) ← readGroup (p.mode.skip rest)
    return (← p.enter opening, rest)
  | ')' => p.leave.map (·, rest)
  | '|' => some ({ p with isRepeatable := false }, rest)
  | '[' => (readWholeClass p.mode rest).map (p.item, ·)
  | '\\' => do
    let (escape, rest) ← readEscape p.mode rest
    return (← p.escape escape, rest)
  | '?' | '*' | '+' => if p.isRepeatable then some (p, rest) else none
  | '\x7b' => none
  | '.' => if p.mode.isAscii then none else some (p.item, rest)
  | '^' | '$' => some (p.item, rest)
  | _ => if p.mode.allows false then some (p.item, rest) else none

/-- Reads all items of a pattern and closes its groups. `fuel` bounds the steps. -/
def run (fuel : Nat) (p : Progress) (s : List Char) : Option Progress :=
  match fuel, p.mode.skip s with
  | _, [] => if p.outer.isEmpty then some p else none
  | 0, _ => none
  | fuel + 1, c :: rest => do
    let (p, rest) ← readItem p c rest
    run fuel p rest

/-- Why a text is no usable pattern. -/
inductive Fault where
  | malformed
  /-- The boundaries of words are known in ASCII only. -/
  | boundary
  deriving DecidableEq, Repr

def Fault.text : Fault → String
  | .malformed => "error building NFA"
  | .boundary =>
    "unsupported regex feature for DFAs: cannot build DFAs for regexes with Unicode word " ++
      "boundaries; switch to ASCII word boundaries, or heuristically enable Unicode word " ++
      "boundaries or use a different regex engine"

/-- The fault of a text that is no usable pattern. -/
def check (s : List Char) : Except Fault Unit :=
  match run s.length {} s with
  | none => .error .malformed
  | some p => if p.hasBoundary then .error .boundary else .ok ()

end ArrayStore.Text.Pattern
