import ArrayStore.Text.Blank

/-!
# Upper and lower case

Only the letters of ASCII have a case.

* `toNat_toUpper`, `toNat_toLower` : the number of a letter in the other case;
* `toLower_toUpper` : the lower case is that of the upper case;
* `isBlank_toUpper`, `trim_map_toUpper` : blanks have no case.
-/

namespace ArrayStore.Text

theorem toNat_toUpper (c : Char) :
    c.toUpper.toNat = if 97 ≤ c.toNat ∧ c.toNat ≤ 122 then c.toNat - 32 else c.toNat := by
  have hbounds : ('a'.val ≤ c.val ∧ c.val ≤ 'z'.val) ↔ 97 ≤ c.toNat ∧ c.toNat ≤ 122 := Iff.rfl
  unfold Char.toUpper
  split
  · next h =>
    rw [if_pos (hbounds.1 h)]
    have hle := (hbounds.1 h).1
    show (c.val + ('A'.val - 'a'.val)).toNat = c.val.toNat - 32
    replace hle : 97 ≤ c.val.toNat := hle
    have hlt := c.val.toNat_lt
    rw [UInt32.toNat_add]
    show (c.val.toNat + 4294967264) % 4294967296 = _
    omega
  · next h => rw [if_neg (mt hbounds.2 h)]

theorem toNat_toLower (c : Char) :
    c.toLower.toNat = if 65 ≤ c.toNat ∧ c.toNat ≤ 90 then c.toNat + 32 else c.toNat := by
  have hbounds : ('A'.val ≤ c.val ∧ c.val ≤ 'Z'.val) ↔ 65 ≤ c.toNat ∧ c.toNat ≤ 90 := Iff.rfl
  unfold Char.toLower
  split
  · next h =>
    rw [if_pos (hbounds.1 h)]
    have hle : c.val.toNat ≤ 90 := (hbounds.1 h).2
    show (c.val + ('a'.val - 'A'.val)).toNat = c.val.toNat + 32
    rw [UInt32.toNat_add]
    show (c.val.toNat + 32) % 4294967296 = _
    omega
  · next h => rw [if_neg (mt hbounds.2 h)]

theorem toLower_toUpper (c : Char) : c.toUpper.toLower = c.toLower := by
  rw [← Char.toNat_inj, toNat_toLower, toNat_toLower, toNat_toUpper]
  grind

theorem map_toLower_congr {s t : List Char} (h : s.map Char.toUpper = t.map Char.toUpper) :
    s.map Char.toLower = t.map Char.toLower := by
  have hlower : Char.toLower = Char.toLower ∘ Char.toUpper :=
    funext fun c => (toLower_toUpper c).symm
  rw [hlower, ← List.map_map, ← List.map_map, h]

theorem isBlank_toUpper (c : Char) : isBlank c.toUpper = isBlank c := by
  simp only [isBlank, toNat_toUpper]
  grind

theorem trim_map_toUpper (s : List Char) :
    trim (s.map Char.toUpper) = (trim s).map Char.toUpper := by
  have hblank : isBlank ∘ Char.toUpper = isBlank := funext isBlank_toUpper
  unfold trim trimRight trimLeft
  rw [List.dropWhile_map, hblank, ← List.map_reverse, List.dropWhile_map, hblank, List.map_reverse]

end ArrayStore.Text
