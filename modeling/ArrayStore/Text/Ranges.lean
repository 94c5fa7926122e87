/-!
# Characters in ranges

* `Text.isWithin` : a character whose code point lies in one of the ranges, both ends included.
-/

namespace ArrayStore.Text

/-- The code point of the character lies in one of the ranges. -/
def isWithin (ranges : List (Nat × Nat)) (c : Char) : Bool :=
  ranges.any fun (low, high) => low ≤ c.toNat && c.toNat ≤ high

end ArrayStore.Text
