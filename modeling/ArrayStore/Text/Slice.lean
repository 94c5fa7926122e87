/-!
# Parts of a text by bytes

A position counts the bytes of UTF-8 in front of it. Only the positions between two characters
divide a text.

* `Text.byteCount` : the bytes of a text;
* `Text.splitAt?` : the texts before and behind a position;
* `Text.slice?` : the text between two positions.
-/

namespace ArrayStore.Text

/-- The bytes that a text takes. -/
def byteCount : List Char → Nat
  | [] => 0
  | c :: rest => c.utf8Size + byteCount rest

/-- The texts before and behind a position, unless it lies inside a character or outside the
text. -/
def splitAt? (position : Nat) : List Char → Option (List Char × List Char)
  | [] => if position = 0 then some ([], []) else none
  | c :: rest =>
    if position = 0 then some ([], c :: rest)
    else if c.utf8Size ≤ position then
      (splitAt? (position - c.utf8Size) rest).map fun (before, behind) => (c :: before, behind)
    else none

def slice? (start stop : Nat) (s : List Char) : Option (List Char) := do
  let (_, behind) ← splitAt? start s
  let (part, _) ← splitAt? (stop - start) behind
  return part

theorem splitAt?_byteCount (before behind : List Char) :
    splitAt? (byteCount before) (before ++ behind) = some (before, behind) := by
  induction before with
  | nil => cases behind <;> rfl
  | cons c before ih =>
    have hc := c.utf8Size_pos
    rw [byteCount, List.cons_append, splitAt?, if_neg (by omega), if_pos (by omega),
      Nat.add_sub_cancel_left, ih]
    rfl

end ArrayStore.Text
