import ArrayStore.Text.Digits

/-!
# Escapes

The escapes that the formats for documents and settings have in common.

* `Text.isPlain` : a character that stands for itself;
* `Text.namedEscape?` : the character that a letter behind a backslash names;
* `Text.charOfCode?` : the character that hexadecimal digits name.
-/

namespace ArrayStore.Text

/-- A tab, or no control character. -/
def isPlain (c : Char) : Bool := c = '\t' || (0x20 ≤ c.toNat && c.toNat != 0x7f)

/-- The character that a letter behind a backslash names. -/
def namedEscape? : Char → Option Char
  | '"' => some '"'
  | '\\' => some '\\'
  | 'b' => some '\x08'
  | 'f' => some '\x0c'
  | 'n' => some '\n'
  | 'r' => some '\r'
  | 't' => some '\t'
  | _ => none

/-- The character with the code that hexadecimal digits name; a surrogate is none. -/
def charOfCode? (digits : List Char) : Option Char := do
  let code ← readHex? digits
  if code.isValidChar then some (Char.ofNat code) else none

end ArrayStore.Text
