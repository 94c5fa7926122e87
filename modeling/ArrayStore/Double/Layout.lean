import ArrayStore.Double.Shortest

/-!
# The text of a double

* `Layout` : the decisions of a number format, and `Double.text` the text under one;
* `Layout.stored` : numbers in stored texts (`1.0`, `1e-6`, `1.5e+300`);
* `Layout.message` : numbers in messages (`1`, `0.000001`, never an exponent).
-/

namespace ArrayStore

/-- The decisions of a number format. -/
structure Layout where
  /-- Is a number whose first digit has this exponent written without an exponent? -/
  positional : Int → Bool
  /-- Does a whole number end in `.0`? -/
  pointZero : Bool
  /-- Which of two equally near shortest decimals is taken. -/
  tie : Tie

namespace Layout

/-- Positional from `0.00001` up to sixteen digits before the point, with an exponent otherwise;
always with a point or an exponent. -/
def stored : Layout := ⟨fun e => decide (-5 ≤ e) && decide (e ≤ 15), true, .toEven⟩

/-- Always positional; whole numbers have no point. -/
def message : Layout := ⟨fun _ => true, false, .away⟩

/-- Digits with the point behind the place of exponent zero; `e` is the exponent of the first. -/
def writePositional (layout : Layout) (digits : List Char) (e : Int) : List Char :=
  if e < 0 then
    ['0', '.'] ++ List.replicate (-e - 1).toNat '0' ++ digits
  else
    let whole := e.toNat + 1
    if digits.length ≤ whole then
      digits ++ List.replicate (whole - digits.length) '0' ++
        (if layout.pointZero then ['.', '0'] else [])
    else digits.take whole ++ ['.'] ++ digits.drop whole

/-- One digit before the point, then the others, then the exponent with its sign. -/
def writeScientific (digits : List Char) (e : Int) : List Char :=
  let mantissa := match digits with
    | [] => []
    | [d] => [d]
    | d :: ds => d :: '.' :: ds
  mantissa ++ ['e', if e < 0 then '-' else '+'] ++ Text.writeNat e.natAbs

/-- The text of a decimal, trailing zeros of the mantissa left out. -/
def writeDecimal (layout : Layout) (d : Decimal) : List Char :=
  let all := Text.writeNat d.mantissa
  let digits := (all.reverse.dropWhile (· == '0')).reverse
  let e : Int := all.length - 1 + d.exponent
  (if d.negative then ['-'] else []) ++
    (if layout.positional e then layout.writePositional digits e else writeScientific digits e)

end Layout

/-- The text of a double: the shortest that reads back, in the given layout. -/
def Double.text (layout : Layout) (d : Double) : List Char :=
  if d.isNaN then "NaN".toList
  else
    let sign := if d.isNegative then ['-'] else []
    if !d.isFinite then sign ++ "inf".toList
    else if d.magnitude = 0 then sign ++ layout.writePositional ['0'] 0
    else layout.writeDecimal (d.shortest layout.tie)

end ArrayStore
