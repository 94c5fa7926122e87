import ArrayStore.Json.Node
import Mathlib.Tactic.SplitIfs

/-!
# Written strings read back

* `readPieces_named`, `readPieces_code`, `readPieces_cons` : the reader, one character at a time;
* `readPieces_escapeChar` : reading undoes the escape of one character;
* `readPieces_escaped` : and, by induction, of a whole text up to its closing quote;
* `readString_writeString` : a written string reads back, whatever follows.
-/

namespace ArrayStore.Json

/-! ## The reader -/

/-- A backslash and a letter that names a character. -/
theorem readPieces_named {letter c : Char} (h : escape? letter = some c) (rest : List Char) :
    readPieces ('\\' :: letter :: rest) =
      (readPieces rest).map fun read => (.char c :: read.1, read.2) := by
  have hu : letter ≠ 'u' := by
    rintro rfl
    cases h
  rw [readPieces.eq_4 letter rest (fun _ _ _ _ _ hl _ => hu hl), h, Option.bind_eq_bind,
    Option.bind_some]
  cases readPieces rest <;> rfl

/-- A backslash, `u` and four digits that name no half of a surrogate pair. -/
theorem readPieces_code {a b c d : Char} {unit : Nat} (h : Text.readHex? [a, b, c, d] = some unit)
    (rest : List Char) :
    readPieces ('\\' :: 'u' :: a :: b :: c :: d :: rest) =
      (readPieces rest).map fun read => (Piece.ofUnit unit :: read.1, read.2) := by
  rw [readPieces, h, Option.bind_eq_bind, Option.bind_some]
  cases readPieces rest <;> rfl

theorem readPieces_cons {c : Char} (hq : c ≠ '"') (hb : c ≠ '\\') (hc : ¬c.toNat < 0x20)
    (rest : List Char) :
    readPieces (c :: rest) = (readPieces rest).map fun read => (.char c :: read.1, read.2) := by
  rw [readPieces.eq_5 c rest hq (fun _ _ _ _ _ h _ => hb h) (fun _ _ h _ => hb h),
    if_neg (by simp [hc, hb])]
  cases readPieces rest <;> rfl

/-! ## Escapes -/

/-- The four digits of a character below the space. -/
theorem readHex?_control {n : Nat} (h : n < 0x20) :
    Text.readHex? ['0', '0', Nat.digitChar (n / 16), Nat.digitChar (n % 16)] = some n := by
  have : ∀ m < 0x20,
      Text.readHex? ['0', '0', Nat.digitChar (m / 16), Nat.digitChar (m % 16)] = some m := by
    decide
  exact this n h

theorem Piece.ofUnit_toNat {c : Char} (h : c.toNat < 0x20) : Piece.ofUnit c.toNat = .char c := by
  unfold Piece.ofUnit
  rw [if_neg (by simp; omega), Char.ofNat_toNat]

/-- An escaped character is read as the character, and the rest goes on. -/
theorem readPieces_escapeChar (c : Char) (rest : List Char) :
    readPieces (escapeChar c ++ rest) =
      (readPieces rest).map fun read => (.char c :: read.1, read.2) := by
  unfold escapeChar
  split_ifs with hq hb hbs hff hn hr ht hc
  · subst hq
    exact readPieces_named rfl rest
  · subst hb
    exact readPieces_named rfl rest
  · subst hbs
    exact readPieces_named rfl rest
  · subst hff
    exact readPieces_named rfl rest
  · subst hn
    exact readPieces_named rfl rest
  · subst hr
    exact readPieces_named rfl rest
  · subst ht
    exact readPieces_named rfl rest
  · -- a code below the space is no half of a surrogate pair
    exact Piece.ofUnit_toNat hc ▸ readPieces_code (readHex?_control hc) rest
  · exact readPieces_cons hq hb hc rest

theorem readPieces_escaped (text rest : List Char) :
    readPieces (text.flatMap escapeChar ++ '"' :: rest) = some (text.map .char, rest) := by
  induction text with
  | nil => rfl
  | cons c text ih =>
    rw [List.flatMap_cons, List.append_assoc, readPieces_escapeChar, ih, Option.map_some,
      List.map_cons]

/-! ## Strings -/

theorem joinPieces_map_char (text : List Char) : joinPieces (text.map .char) = some text := by
  induction text with
  | nil => rfl
  | cons c text ih => rw [List.map_cons, joinPieces, ih, Option.map_some]

theorem writeString_append (text : String) (rest : List Char) :
    writeString text ++ rest = '"' :: (text.toList.flatMap escapeChar ++ '"' :: rest) := by
  rw [writeString, List.cons_append, List.cons_append, List.append_assoc, List.singleton_append]

/-- Behind its opening quote, a written string reads back. -/
theorem readString_writeString (text : String) (rest : List Char) :
    readString (text.toList.flatMap escapeChar ++ '"' :: rest) = some (some text, rest) := by
  rw [readString, readPieces_escaped]
  simp only [Option.bind_eq_bind, Option.bind_some, joinPieces_map_char, Option.map_some,
    String.ofList_toList]
  rfl

end ArrayStore.Json
