import ArrayStore.Json.Value
import ArrayStore.Text.Escape
import ArrayStore.Text.Scan

/-!
# Documents as written

A `Json.Node` is a document before its meaning: members in their order, numbers as decimals, and
strings that may hold half of a surrogate pair.

* `Json.Numeral` : a number as written, and `Json.Numeral.number?` its value;
* `Json.Node.read?` : the node that a text holds, and nothing but blanks after it;
* `Json.Node.value?` : the value of a node; there is none if a string is no text or a number is
  beyond the doubles;
* `Json.Value.read?` : the value that a text holds.
-/

namespace ArrayStore.Json

/-- A number as written. `integral` says that it has neither fraction nor exponent. -/
structure Numeral where
  decimal : Decimal
  integral : Bool
  deriving DecidableEq, Repr

/-- Integers of 64 bits stay integers, apart from `-0`; any other number is a finite double. -/
def Numeral.number? (n : Numeral) : Option Number :=
  let asDouble :=
    let d := n.decimal.nearest
    if d.isFinite then some (.double d) else none
  if n.integral then
    if !n.decimal.negative && n.decimal.mantissa < Word.limit then
      some (.integer n.decimal.mantissa)
    else if n.decimal.negative && 0 < n.decimal.mantissa && n.decimal.mantissa ≤ Word.half then
      some (.integer (-n.decimal.mantissa))
    else asDouble
  else asDouble

/-- A document as written. A string is `none` if it holds half of a surrogate pair. -/
inductive Node where
  | null
  | bool (value : Bool)
  | number (numeral : Numeral)
  | string (text : Option String)
  | array (items : List Node)
  | object (members : List (Option String × Node))
  deriving Repr, Inhabited

/-! ## Strings -/

/-- A character of a string, or the half of a surrogate pair that an escape names. -/
inductive Piece where
  | char (c : Char)
  | half (unit : Nat)
  deriving DecidableEq, Repr

/-- The piece that a four-digit escape names. -/
def Piece.ofUnit (unit : Nat) : Piece :=
  if 0xd800 ≤ unit && unit < 0xe000 then .half unit else .char (Char.ofNat unit)

/-- The character that a letter behind a backslash names; a slash may be escaped, too. -/
def escape? (c : Char) : Option Char := if c = '/' then some '/' else Text.namedEscape? c

/-- Reads the pieces of a string up to the closing quote, and gives the text after it. -/
def readPieces : List Char → Option (List Piece × List Char)
  | [] => none
  | '"' :: rest => some ([], rest)
  | '\\' :: 'u' :: a :: b :: c :: d :: rest => do
    let unit ← Text.readHex? [a, b, c, d]
    let (pieces, rest) ← readPieces rest
    return (Piece.ofUnit unit :: pieces, rest)
  | '\\' :: c :: rest => do
    let c ← escape? c
    let (pieces, rest) ← readPieces rest
    return (.char c :: pieces, rest)
  | c :: rest =>
    if c.toNat < 0x20 || c = '\\' then none
    else do
      let (pieces, rest) ← readPieces rest
      return (.char c :: pieces, rest)

/-- The text of the pieces: two halves in a row are one character, a lone half is none. -/
def joinPieces : List Piece → Option (List Char)
  | [] => some []
  | .char c :: pieces => (joinPieces pieces).map (c :: ·)
  | .half high :: .half low :: pieces =>
    if high < 0xdc00 && 0xdc00 ≤ low then
      (joinPieces pieces).map
        (Char.ofNat (0x10000 + (high - 0xd800) * 0x400 + (low - 0xdc00)) :: ·)
    else none
  | .half _ :: _ => none

/-- Reads a string after its opening quote. -/
def readString (s : List Char) : Option (Option String × List Char) := do
  let (pieces, rest) ← readPieces s
  return ((joinPieces pieces).map String.ofList, rest)

/-! ## Numbers -/

/-- Reads the digits of an exponent and their sign, if there is an exponent. -/
def readExponent (s : List Char) : Option (Option Int × List Char) :=
  match s with
  | c :: rest =>
    if c = 'e' || c = 'E' then
      let (negative, rest) := match rest with
        | '-' :: rest => (true, rest)
        | '+' :: rest => (false, rest)
        | rest => (false, rest)
      match rest.span Text.isDigit with
      | ([], _) => none
      | (digits, rest) =>
        let n : Int := Text.readDigits digits
        some (some (if negative then -n else n), rest)
    else some (none, s)
  | [] => some (none, s)

def readFraction (s : List Char) : Option (Option (List Char) × List Char) :=
  match s with
  | '.' :: rest =>
    match rest.span Text.isDigit with
    | ([], _) => none
    | (digits, rest) => some (some digits, rest)
  | s => some (none, s)

/-- Reads the digits before the point; no other digit follows a leading zero. -/
def readWhole (s : List Char) : Option (List Char × List Char) :=
  match s.span Text.isDigit with
  | ([], _) => none
  | ('0' :: _ :: _, _) => none
  | (digits, rest) => some (digits, rest)

def readNumeral (negative : Bool) (s : List Char) : Option (Numeral × List Char) := do
  let (whole, rest) ← readWhole s
  let (fraction, rest) ← readFraction rest
  let (exponent, rest) ← readExponent rest
  return (⟨.ofDigits negative whole (fraction.getD []) (exponent.getD 0),
    fraction.isNone && exponent.isNone⟩, rest)

/-! ## Documents -/

/-- The blanks of a document. -/
def isSpace (c : Char) : Bool := c = ' ' || c = '\t' || c = '\n' || c = '\r'

def skipSpace (s : List Char) : List Char := s.dropWhile isSpace

mutual

/-- Reads a value. `fuel` bounds the calls; twice the length of the text suffices. -/
def readNode (fuel : Nat) (s : List Char) : Option (Node × List Char) :=
  match fuel with
  | 0 => none
  | fuel + 1 =>
    match skipSpace s with
    | [] => none
    | c :: rest =>
      if c = '"' then (readString rest).map fun (text, rest) => (.string text, rest)
      else if c = '[' then
        match skipSpace rest with
        | ']' :: rest => some (.array [], rest)
        | _ => (readItems fuel rest).map fun (items, rest) => (.array items, rest)
      else if c = '\x7b' then
        match skipSpace rest with
        | '\x7d' :: rest => some (.object [], rest)
        | _ => (readMembers fuel rest).map fun (members, rest) => (.object members, rest)
      else if c = 'n' then (Text.expect "ull".toList rest).map fun rest => (.null, rest)
      else if c = 't' then (Text.expect "rue".toList rest).map fun rest => (.bool true, rest)
      else if c = 'f' then (Text.expect "alse".toList rest).map fun rest => (.bool false, rest)
      else if c = '-' then (readNumeral true rest).map fun (n, rest) => (.number n, rest)
      else (readNumeral false (c :: rest)).map fun (n, rest) => (.number n, rest)

/-- Reads the items of an array, one at least, and the closing bracket. -/
def readItems (fuel : Nat) (s : List Char) : Option (List Node × List Char) :=
  match fuel with
  | 0 => none
  | fuel + 1 =>
    match readNode fuel s with
    | none => none
    | some (item, rest) =>
      match skipSpace rest with
      | ']' :: rest => some ([item], rest)
      | ',' :: rest => (readItems fuel rest).map fun (items, rest) => (item :: items, rest)
      | _ => none

/-- Reads the members of an object, one at least, and the closing brace. -/
def readMembers (fuel : Nat) (s : List Char) : Option (List (Option String × Node) × List Char) :=
  match fuel with
  | 0 => none
  | fuel + 1 =>
    match skipSpace s with
    | '"' :: rest =>
      match readString rest with
      | none => none
      | some (key, rest) =>
        match skipSpace rest with
        | ':' :: rest =>
          match readNode fuel rest with
          | none => none
          | some (value, rest) =>
            match skipSpace rest with
            | '\x7d' :: rest => some ([(key, value)], rest)
            | ',' :: rest =>
              (readMembers fuel rest).map fun (members, rest) => ((key, value) :: members, rest)
            | _ => none
        | _ => none
    | _ => none

end

/-- The document that a text holds, with blanks around it. -/
def Node.read? (text : String) : Option Node :=
  match readNode (2 * text.toList.length + 2) text.toList with
  | some (node, rest) => if (skipSpace rest).isEmpty then some node else none
  | none => none

/-! ## Meaning -/

mutual

def Node.value? : Node → Option Value
  | .null => some .null
  | .bool b => some (.bool b)
  | .number n => n.number?.map .number
  | .string text => text.map .string
  | .array items => (Node.values? items).map .array
  | .object members => (Node.members? members).map fun members => .object (Keyed.ofList members)

def Node.values? : List Node → Option (List Value)
  | [] => some []
  | item :: items => do
    let item ← item.value?
    let items ← Node.values? items
    return item :: items

/-- The keys and values of the members, in their order. -/
def Node.members? : List (Option String × Node) → Option (List (String × Value))
  | [] => some []
  | (key, value) :: members => do
    let key ← key
    let value ← value.value?
    let members ← Node.members? members
    return (key, value) :: members

end

def Value.read? (text : String) : Option Value := (Node.read? text).bind Node.value?

end ArrayStore.Json
