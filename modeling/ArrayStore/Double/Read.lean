import ArrayStore.Double.Nearest

/-!
# Decimals as they are written

* `Decimal.read?` : a decimal such as `-1.5e3`, `.5` or `7`;
* `Decimal.isNumeral` : the text names a number, infinity or NaN.
-/

namespace ArrayStore.Decimal
open Text

def readSign : List Char → Bool × List Char
  | '-' :: rest => (true, rest)
  | '+' :: rest => (false, rest)
  | s => (false, s)

def readExponent? : List Char → Option Int
  | [] => some 0
  | c :: rest =>
    if c = 'e' || c = 'E' then
      let (negative, digits) := readSign rest
      if digits.isEmpty || !digits.all isDigit then none
      else
        let n : Int := readDigits digits
        some (if negative then -n else n)
    else none

/-- A decimal with a digit before or behind the point. -/
def read? (s : List Char) : Option Decimal := do
  let (negative, unsigned) := readSign s
  let (whole, rest) := unsigned.span isDigit
  let (fraction, rest) := match rest with
    | '.' :: rest => rest.span isDigit
    | rest => ([], rest)
  if whole.isEmpty && fraction.isEmpty then none
  else
    let exponent ← readExponent? rest
    return ofDigits negative whole fraction exponent

/-- The words for the values that are no decimals. -/
def words : List (List Char) := ["inf".toList, "infinity".toList, "nan".toList]

/-- The text is a decimal, or one of the words with or without a sign, in any case. -/
def isNumeral (s : List Char) : Bool :=
  (read? s).isSome || words.contains ((readSign s).2.map Char.toLower)

end ArrayStore.Decimal
