import ArrayStore.Double.Basic
import ArrayStore.Text.Digits

/-!
# The double nearest to a decimal

* `Decimal` : a sign, a mantissa and a power of ten, as numbers are written;
* `Double.nearestMagnitude` : the magnitude nearest to a quotient, a tie going to the even one;
* `Decimal.nearest` : the nearest double, infinite beyond the range.
-/

namespace ArrayStore

/-- The number `± mantissa · 10 ^ exponent`. -/
structure Decimal where
  negative : Bool
  mantissa : Nat
  exponent : Int
  deriving DecidableEq, Repr

/-- The quotient `num / den` rounded to an integer, a tie going to the even one. -/
def roundHalfEven (num den : Nat) : Nat :=
  let quotient := num / den
  let twice := 2 * (num % den)
  if twice < den then quotient
  else if den < twice then quotient + 1
  else quotient + quotient % 2

/-- The quotient `num / (den · 2 ^ exponent)` rounded to an integer. -/
def roundScaled (num den : Nat) (exponent : Int) : Nat :=
  if 0 ≤ exponent then roundHalfEven num (den * Nat.pow 2 exponent.toNat)
  else roundHalfEven (num * Nat.pow 2 (-exponent).toNat) den

/-- The exponent of the last place of the doubles around `num / den`, not below that of the
smallest double. -/
def lastPlace (num den : Nat) : Int :=
  let guess : Int := (num.log2 : Int) - den.log2
  let exact := if 0 ≤ guess then den * Nat.pow 2 guess.toNat ≤ num
    else den ≤ num * Nat.pow 2 (-guess).toNat
  max (-1074) ((if exact then guess else guess - 1) - 52)

namespace Double

/-- The bits below the sign of the double nearest to `num / den`. Magnitudes are consecutive, so a
rounding up to the next power of two needs no special case. -/
def nearestMagnitude (num den : Nat) : Nat :=
  if num = 0 then 0
  else
    let place := lastPlace num den
    min infinityMagnitude (roundScaled num den place + (place + 1074).toNat * unit)

end Double

namespace Decimal

/-- The nearest double. Mantissas far outside the range are settled by their length alone. -/
def nearest (d : Decimal) : Double :=
  let size : Int := (Text.writeNat d.mantissa).length + d.exponent
  if d.mantissa = 0 || size < -400 then Double.zero d.negative
  else if 400 < size then Double.infinity d.negative
  else if 0 ≤ d.exponent then
    .ofMagnitude d.negative
      (Double.nearestMagnitude (d.mantissa * Nat.pow 10 d.exponent.toNat) 1)
  else
    .ofMagnitude d.negative
      (Double.nearestMagnitude d.mantissa (Nat.pow 10 (-d.exponent).toNat))

/-- The decimal with the given digits before and after the point, times a power of ten. -/
def ofDigits (negative : Bool) (whole fraction : List Char) (exponent : Int) : Decimal :=
  ⟨negative, Text.readDigits (whole ++ fraction), exponent - fraction.length⟩

end Decimal

end ArrayStore
