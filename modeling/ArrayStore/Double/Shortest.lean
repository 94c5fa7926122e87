import ArrayStore.Double.Nearest

/-!
# The shortest decimal that reads back

* `Double.candidate` : of the two decimals of a given number of digits around a double, the nearer
  one that reads back as it;
* `Double.shortest` : the candidate with the fewest digits.
-/

namespace ArrayStore

/-- Which of two equally near decimals is taken. -/
inductive Tie where
  | toEven
  | away
  deriving DecidableEq, Repr

namespace Double

/-- The exponent of the first decimal digit of a positive quotient. -/
def firstPlace (num den : Nat) : Int :=
  let guess : Int := ((Text.writeNat num).length : Int) - (Text.writeNat den).length
  let reached := if 0 ≤ guess then den * Nat.pow 10 guess.toNat ≤ num
    else den ≤ num * Nat.pow 10 (-guess).toNat
  if reached then guess else guess - 1

/-- The quotient `num / (den · 10 ^ place)`, as numerator and denominator. -/
def scaled (num den : Nat) (place : Int) : Nat × Nat :=
  if 0 ≤ place then (num, den * Nat.pow 10 place.toNat)
  else (num * Nat.pow 10 (-place).toNat, den)

/-- The nearer of the neighbours of `d` with unit `10 ^ place` that read back as `d`. -/
def candidate (tie : Tie) (d : Double) (place : Int) : Option Decimal :=
  let (num, den) := scaled d.magnitudeRatio.1 d.magnitudeRatio.2 place
  let below : Decimal := ⟨d.isNegative, num / den, place⟩
  let above : Decimal := ⟨d.isNegative, num / den + 1, place⟩
  let twice := 2 * (num % den)
  if below.nearest = d then
    if above.nearest = d then
      if twice < den then some below
      else if den < twice then some above
      else if tie = .toEven && below.mantissa % 2 == 0 then some below
      else some above
    else some below
  else if above.nearest = d then some above
  else none

/-- The decimal with the fewest digits that reads back as the finite, non-zero `d`, and of those
the nearest one. Seventeen digits always suffice. -/
def shortest (tie : Tie) (d : Double) : Decimal :=
  let first := firstPlace d.magnitudeRatio.1 d.magnitudeRatio.2
  let place (n : Nat) : Int := first - n
  ((List.range 17).findSome? fun n => d.candidate tie (place n)).getD
    (let (num, den) := scaled d.magnitudeRatio.1 d.magnitudeRatio.2 (place 16)
     ⟨d.isNegative, num / den, place 16⟩)

end Double

end ArrayStore
