import ArrayStore.ListLiteral.Parser

/-!
# The grammar of list literals

A `Literal` is a derivation: a tree whose parts carry the conditions under which they may stand
where they stand. `written` gives the text that a tree derives, `values` what it stands for. The
grammar does not mention the reader.

* `Blanks` : white space;
* `Piece`, `QuotedText` : a string in quotes, character by character;
* `depthBehind`, `BareToken` : a token without a comma outside brackets;
* `Item` : an entry with the blanks around it;
* `Items` : what stands between the brackets;
* `Literal` : a whole text.
-/

namespace ArrayStore.ListLiteral
open Text

/-! ## White space -/

@[ext]
structure Blanks where
  chars : List Char
  all_blank : ∀ c ∈ chars, isBlank c = true

/-! ## Quoted strings -/

/-- What stands for one character between two delimiters. -/
inductive Piece (delimiter : Char) where
  | plain (c : Char) (ne_delimiter : c ≠ delimiter) (ne_backslash : c ≠ '\\')
  | escaped (c : Char)

def Piece.written {delimiter : Char} : Piece delimiter → List Char
  | .plain c _ _ => [c]
  | .escaped c => ['\\', c]

/-- The character that a piece stands for. -/
def Piece.char {delimiter : Char} : Piece delimiter → Char
  | .plain c _ _ => c
  | .escaped 'n' => '\n'
  | .escaped 't' => '\t'
  | .escaped c => c

structure QuotedText where
  delimiter : Char
  isQuote_delimiter : delimiter = apostrophe ∨ delimiter = '"'
  pieces : List (Piece delimiter)

def QuotedText.written (q : QuotedText) : List Char :=
  q.delimiter :: q.pieces.flatMap Piece.written ++ [q.delimiter]

def QuotedText.text (q : QuotedText) : List Char := q.pieces.map Piece.char

/-! ## Bare tokens -/

/-- The bracket depth behind a text that starts at the given depth. -/
def depthBehind (depth : Nat) (s : List Char) : Nat := s.foldl depthAfter depth

/-- Every comma of the text stands within brackets, the depth before the text counted. -/
def EnclosesCommas (depth : Nat) (s : List Char) : Prop :=
  ∀ front back, s = front ++ ',' :: back → 0 < depthBehind depth front

@[ext]
structure BareToken where
  chars : List Char
  start : ∀ c, chars.head? = some c → isBlank c = false ∧ c ≠ apostrophe ∧ c ≠ '"'
  enclosesCommas : EnclosesCommas 0 chars

/-- A token without the blanks behind it. -/
def BareToken.text (t : BareToken) : List Char := trimRight t.chars

/-! ## Entries -/

/-- An entry with the blanks around it; those behind a bare token are part of it. -/
inductive Item where
  | quoted (before : Blanks) (q : QuotedText) (after : Blanks)
  | bare (before : Blanks) (token : BareToken)

namespace Item

def written : Item → List Char
  | .quoted before q after => before.chars ++ q.written ++ after.chars
  | .bare before token => before.chars ++ token.chars

/-- A comma may follow the item. Within brackets it would be part of a bare token. -/
def EndsAtComma : Item → Prop
  | .quoted _ _ _ => True
  | .bare _ token => depthBehind 0 token.chars = 0

/-- The item may be the last one. An empty token is none: it needs a comma behind it. -/
def EndsAtEnd : Item → Prop
  | .quoted _ _ _ => True
  | .bare _ token => token.chars ≠ []

def value : Item → Option String
  | .quoted _ q _ => some (String.ofList q.text)
  | .bare _ token =>
    if String.ofList token.text = "None" then none else some (String.ofList token.text)

end Item

/-! ## Literals -/

/-- What stands between the brackets. -/
inductive Items where
  | none (blanks : Blanks)
  | last (item : Item) (ends : item.EndsAtEnd)
  | comma (item : Item) (ends : item.EndsAtComma) (rest : Items)

namespace Items

def written : Items → List Char
  | .none blanks => blanks.chars
  | .last item _ => item.written
  | .comma item _ rest => item.written ++ ',' :: rest.written

def toList : Items → List Item
  | .none _ => []
  | .last item _ => [item]
  | .comma item _ rest => item :: rest.toList

end Items

@[ext]
structure Literal where
  before : Blanks
  items : Items
  after : Blanks

namespace Literal

def written (l : Literal) : List Char :=
  l.before.chars ++ '[' :: l.items.written ++ ']' :: l.after.chars

def values (l : Literal) : List (Option String) := l.items.toList.map Item.value

end Literal

end ArrayStore.ListLiteral
