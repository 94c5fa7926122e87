/-!
# White space

* `Text.isBlank` : the characters with the Unicode property `White_Space`;
* `Text.trimLeft`, `Text.trimRight`, `Text.trim` : a text without the blanks at its ends.
-/

namespace ArrayStore.Text

/-- The code points with the property `White_Space`. -/
def isBlank (c : Char) : Bool :=
  (9 ≤ c.toNat && c.toNat ≤ 13) || c.toNat == 0x20 || c.toNat == 0x85 || c.toNat == 0xa0 ||
    c.toNat == 0x1680 || (0x2000 ≤ c.toNat && c.toNat ≤ 0x200a) || c.toNat == 0x2028 ||
    c.toNat == 0x2029 || c.toNat == 0x202f || c.toNat == 0x205f || c.toNat == 0x3000

def trimLeft (s : List Char) : List Char := s.dropWhile isBlank

def trimRight (s : List Char) : List Char := (s.reverse.dropWhile isBlank).reverse

/-- Drops the blanks at both ends. -/
def trim (s : List Char) : List Char := trimRight (trimLeft s)

theorem length_trimLeft_le (s : List Char) : (trimLeft s).length ≤ s.length :=
  (List.dropWhile_suffix isBlank).length_le

theorem length_trimRight_le (s : List Char) : (trimRight s).length ≤ s.length := by
  have h := (List.dropWhile_suffix isBlank (l := s.reverse)).length_le
  rwa [List.length_reverse, ← List.length_reverse, ← trimRight] at h

/-- A text without blanks at its ends has none in front. -/
theorem trimLeft_of_trim {s : List Char} (h : trim s = s) : trimLeft s = s := by
  refine (List.dropWhile_suffix isBlank).eq_of_length_le ?_
  have hle := length_trimRight_le (trimLeft s)
  rwa [← trim, h] at hle

theorem isBlank_of_trimLeft_eq_cons {s rest : List Char} {c : Char} (h : trimLeft s = c :: rest) :
    isBlank c = false := by
  have hh := List.head?_dropWhile_not isBlank s
  rwa [← trimLeft, h] at hh

theorem trimLeft_cons_of_blank {c : Char} {s : List Char} (h : isBlank c = true) :
    trimLeft (c :: s) = trimLeft s := by
  unfold trimLeft
  rw [List.dropWhile_cons_of_pos h]

theorem trimLeft_cons_of_not_blank {c : Char} {s : List Char} (h : isBlank c = false) :
    trimLeft (c :: s) = c :: s := by
  unfold trimLeft
  rw [List.dropWhile_cons_of_neg (by simp [h])]

theorem trimRight_append_of_not_blank {c : Char} {s : List Char} (h : isBlank c = false) :
    trimRight (s ++ [c]) = s ++ [c] := by
  unfold trimRight
  rw [List.reverse_append, List.reverse_singleton, List.singleton_append,
    List.dropWhile_cons_of_neg (by simp [h]), List.reverse_cons, List.reverse_reverse]

/-- A text between two characters that are not blank has no blanks at its ends. -/
theorem trim_of_not_blank {first last : Char} {s : List Char} (hf : isBlank first = false)
    (hl : isBlank last = false) : trim (first :: s ++ [last]) = first :: s ++ [last] := by
  unfold trim
  rw [List.cons_append, trimLeft_cons_of_not_blank hf, ← List.cons_append,
    trimRight_append_of_not_blank hl]

end ArrayStore.Text
