import ArrayStore.Text.Unprintable

/-!
# Quoted text in messages

* `Text.quoteChar` : a character as it stands between double quotes;
* `Text.quoted` : a text between double quotes, so that a reader of a message sees its every
  character.
-/

namespace ArrayStore.Text

/-- The digits of `n` in base 16, in lower case. -/
def hexDigits (n : Nat) : List Char := Nat.toDigits 16 n

/-- Quote, backslash and the common controls have a short escape; what has no printed form is
named by its code point. -/
def quoteChar (c : Char) : List Char :=
  if c = '\x00' then ['\\', '0']
  else if c = '\t' then ['\\', 't']
  else if c = '\r' then ['\\', 'r']
  else if c = '\n' then ['\\', 'n']
  else if c = '"' then ['\\', '"']
  else if c = '\\' then ['\\', '\\']
  else if isUnprintable c then ['\\', 'u', '\x7b'] ++ hexDigits c.toNat ++ ['\x7d']
  else [c]

def quoted (s : String) : String :=
  String.ofList ('"' :: s.toList.flatMap quoteChar ++ ['"'])

end ArrayStore.Text
