/-!
# Decimal digits

* `Text.isDigit` : an ASCII digit, and `Text.digitValue` its value;
* `Text.readDigits` : the number that digits name;
* `Text.hexValue?`, `Text.isHexDigit` : the same in base 16;
* `Text.writeNat`, `Text.writeInt` : the digits of a number, without leading zeros.
-/

namespace ArrayStore.Text

def isDigit (c : Char) : Bool := '0' ≤ c && c ≤ '9'

def digitValue (c : Char) : Nat := c.toNat - '0'.toNat

/-- The number that the digits name in base 10, zero for none. -/
def readDigits (s : List Char) : Nat := s.foldl (fun n c => 10 * n + digitValue c) 0

/-- The digit with the given value below ten. -/
def digitChar (n : Nat) : Char := Char.ofNat ('0'.toNat + n)

/-- The digits of `n`, without leading zeros. -/
def writeNat (n : Nat) : List Char :=
  if n < 10 then [digitChar n] else writeNat (n / 10) ++ [digitChar (n % 10)]

/-- The digits of `i`, a minus sign in front of a negative number. -/
def writeInt : Int → List Char
  | .ofNat n => writeNat n
  | .negSucc n => '-' :: writeNat (n + 1)

def hexValue? (c : Char) : Option Nat :=
  if '0' ≤ c && c ≤ '9' then some (c.toNat - '0'.toNat)
  else if 'a' ≤ c && c ≤ 'f' then some (c.toNat - 'a'.toNat + 10)
  else if 'A' ≤ c && c ≤ 'F' then some (c.toNat - 'A'.toNat + 10)
  else none

def isHexDigit (c : Char) : Bool := (hexValue? c).isSome

def readHex? (digits : List Char) : Option Nat :=
  digits.foldlM (fun n c => (hexValue? c).map (16 * n + ·)) 0

theorem digitValue_digitChar {n : Nat} (h : n < 10) : digitValue (digitChar n) = n := by
  have : ∀ m < 10, digitValue (digitChar m) = m := by decide
  exact this n h

theorem readDigits_append_singleton (s : List Char) (c : Char) :
    readDigits (s ++ [c]) = 10 * readDigits s + digitValue c := by
  simp [readDigits, List.foldl_append]

theorem readDigits_writeNat (n : Nat) : readDigits (writeNat n) = n := by
  induction n using Nat.strongRecOn with
  | _ n ih =>
    rw [writeNat]
    split
    · next h => simp [readDigits, digitValue_digitChar h]
    · next h =>
      rw [readDigits_append_singleton, ih (n / 10) (by omega), digitValue_digitChar (by omega)]
      omega

end ArrayStore.Text
