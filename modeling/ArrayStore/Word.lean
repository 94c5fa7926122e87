/-!
# Integers of 64 bits

* `Word.limit`, `Word.half` : one more than the greatest unsigned and the greatest signed integer;
* `Word.isSigned` : the integers that fit with a sign;
* `Arithmetic`, `Arithmetic.word?` : what becomes of a number that does not fit without one.
-/

namespace ArrayStore

namespace Word

/-- One more than the greatest unsigned integer. -/
def limit : Nat := 0x10000000000000000

/-- One more than the greatest signed integer. -/
def half : Nat := 0x8000000000000000

/-- The integer fits with a sign. -/
def isSigned (i : Int) : Bool := -half ≤ i && i < half

end Word

/-- What a build does with a number that does not fit a machine word. -/
inductive Arithmetic where
  /-- The operation breaks off. -/
  | checked
  /-- The number is reduced to a word. -/
  | wrapping
  deriving DecidableEq, Repr

namespace Arithmetic

/-- The word for a number, none if the operation breaks off. -/
def word? : Arithmetic → Nat → Option Nat
  | .checked, n => if n < Word.limit then some n else none
  | .wrapping, n => some (n % Word.limit)

theorem word?_of_lt (arithmetic : Arithmetic) {n : Nat} (h : n < Word.limit) :
    arithmetic.word? n = some n := by
  cases arithmetic with
  | checked => exact if_pos h
  | wrapping => exact congrArg some (Nat.mod_eq_of_lt h)

theorem word?_checked_eq_some_iff {m n : Nat} :
    checked.word? n = some m ↔ n < Word.limit ∧ m = n := by
  show (if n < Word.limit then some n else none) = some m ↔ _
  rw [Option.ite_none_right_eq_some, Option.some.injEq, eq_comm (a := n)]

end Arithmetic

end ArrayStore
