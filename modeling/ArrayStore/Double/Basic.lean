import ArrayStore.Word

/-!
# Binary floating-point numbers of double precision

A `Double` is its 64 bits, so that two samples are equal exactly if their bits are.

* `Double.nan`, `Double.isNaN` : the sample of a row that has not been measured, and its test;
* `Double.magnitudeRatio` : the exact absolute value of a finite number as a quotient;
* `Double.sameNumber` : equality as numbers, which makes the two zeros one.
-/

namespace ArrayStore

/-- A double by its bits: sign, eleven exponent bits, fifty-two fraction bits. -/
structure Double where
  bits : UInt64
  deriving DecidableEq, Repr, Inhabited

namespace Double

/-- The bits below the sign. -/
def magnitude (d : Double) : Nat := d.bits.toNat % Word.half

/-- The magnitude of infinity: all exponent bits and no fraction bit. -/
def infinityMagnitude : Nat := 0x7ff0000000000000

/-- The double with this sign and these bits below it. -/
def ofMagnitude (negative : Bool) (magnitude : Nat) : Double :=
  ⟨UInt64.ofNat (magnitude + if negative then Word.half else 0)⟩

def isNegative (d : Double) : Bool := Word.half ≤ d.bits.toNat

/-- Not a number: above infinity. -/
def isNaN (d : Double) : Bool := infinityMagnitude < d.magnitude

def isFinite (d : Double) : Bool := d.magnitude < infinityMagnitude

/-- The quiet NaN that fills unmeasured rows. -/
def nan : Double := ⟨0x7ff8000000000000⟩

def infinity (negative : Bool) : Double := ofMagnitude negative infinityMagnitude

def zero (negative : Bool) : Double := ofMagnitude negative 0

/-- The number of fraction patterns: the significand of a normal double lies between this and its
double. -/
def unit : Nat := 0x10000000000000

/-- The absolute value of a finite double as numerator and denominator. -/
def magnitudeRatio (d : Double) : Nat × Nat :=
  let exponent := d.magnitude / unit
  let fraction := d.magnitude % unit
  if exponent = 0 then (fraction, Nat.pow 2 1074)
  else if exponent < 1075 then (unit + fraction, Nat.pow 2 (1075 - exponent))
  else ((unit + fraction) * Nat.pow 2 (exponent - 1075), 1)

/-- Equality as numbers, for doubles that are not NaN: the two zeros are equal. -/
def sameNumber (a b : Double) : Bool :=
  a == b || (a.magnitude == 0 && b.magnitude == 0)

@[simp] theorem isNaN_nan : nan.isNaN = true := by decide

end Double

end ArrayStore
