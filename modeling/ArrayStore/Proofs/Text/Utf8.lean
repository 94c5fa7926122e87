import ArrayStore.Text.Utf8
import Mathlib.Tactic.SplitIfs

/-!
# UTF-8: reading undoes writing

* `toByteArray_encode` : the bytes of a text are those of the standard library;
* `eq_encodeChar_of_head`, `head_of_encodeChar` : a character is read exactly where its bytes stand;
* `decode_eq_ok_iff` : a text is read exactly from its bytes;
* `IsLongestText` : the length of the longest beginning that is a text;
* `isLongestText_of_decode_eq_error` : a fault reports that length.
-/

namespace ArrayStore.Utf8

/-! ## Bytes as numbers -/

theorem toNat_continuation (n : Nat) : (continuation n).toNat = 0x80 + n % 64 := by
  unfold continuation
  rw [UInt8.toNat_ofNat']
  omega

theorem payload_continuation (n : Nat) : payload (continuation n) = n % 64 := by
  unfold payload
  rw [toNat_continuation]
  omega

theorem isContinuation_iff (b : UInt8) :
    isContinuation b = true ↔ 0x80 ≤ b.toNat ∧ b.toNat ≤ 0xbf := by
  simp [isContinuation, UInt8.le_iff_toNat_le]

theorem isContinuation_continuation (n : Nat) : isContinuation (continuation n) = true := by
  rw [isContinuation_iff, toNat_continuation]
  omega

theorem allowsSecond_iff (lead b : UInt8) :
    allowsSecond lead b = true ↔ 0x80 ≤ b.toNat ∧ b.toNat ≤ 0xbf ∧
      (lead.toNat = 0xe0 → 0xa0 ≤ b.toNat) ∧ (lead.toNat = 0xed → b.toNat ≤ 0x9f) ∧
      (lead.toNat = 0xf0 → 0x90 ≤ b.toNat) ∧ (lead.toNat = 0xf4 → b.toNat ≤ 0x8f) := by
  unfold allowsSecond secondRange
  simp only [← UInt8.toNat_inj, UInt8.reduceToNat]
  split_ifs <;>
    simp only [Bool.and_eq_true, decide_eq_true_eq, UInt8.le_iff_toNat_le, UInt8.reduceToNat] <;>
    omega

/-- Neither a surrogate nor too large. -/
theorem isValidChar_toNat (c : Char) : c.toNat < 0xd800 ∨ 0xdfff < c.toNat ∧ c.toNat < 0x110000 :=
  c.valid

theorem toNat_ofNat_of_isValidChar {n : Nat} (h : n.isValidChar) : (Char.ofNat n).toNat = n := by
  unfold Char.ofNat
  rw [dif_pos h]
  rfl

theorem ofNat_eq_of_eq_toNat {n : Nat} {c : Char} (h : n = c.toNat) : Char.ofNat n = c := by
  rw [h, Char.ofNat_toNat]

/-! ## The form of the standard library -/

theorem encodeChar_eq (c : Char) : encodeChar c = String.utf8EncodeChar c := by
  have hv := isValidChar_toNat c
  have hn : c.val.toNat = c.toNat := rfl
  -- the library asks for the last code of each length, `encodeChar` for the first of the next
  have h₁ : c.toNat ≤ 0x7f ↔ c.toNat < 0x80 := by omega
  have h₂ : c.toNat ≤ 0x7ff ↔ c.toNat < 0x800 := by omega
  have h₃ : c.toNat ≤ 0xffff ↔ c.toNat < 0x10000 := by omega
  unfold encodeChar String.utf8EncodeChar
  simp only [hn, h₁, h₂, h₃]
  split_ifs
  · rfl
  all_goals
    simp only [List.cons.injEq, ← UInt8.toNat_inj, toNat_continuation, UInt8.toNat_ofNat', and_true]
    omega

theorem toByteArray_encode (s : String) : (encode s).toByteArray = s.toUTF8 := by
  have h : encodeChar = String.utf8EncodeChar := funext encodeChar_eq
  rw [String.toUTF8_eq_toByteArray, ← String.utf8Encode_toList, List.utf8Encode, encode, h]

/-! ## One character

A lead byte decides how many bytes a character has. For each length there is one lemma on reading
and one on writing back what was read.
-/

section Lead
variable {b b₁ b₂ b₃ : UInt8}

theorem head_of_one (h : b.toNat < 0x80) (rest : List UInt8) :
    head b rest = .char (Char.ofNat b.toNat) rest := by
  unfold head
  rw [if_pos (UInt8.lt_iff_toNat_lt.2 h)]

theorem head_of_two (hb : 0xc2 ≤ b.toNat) (hb' : b.toNat < 0xe0)
    (h₁ : allowsSecond b b₁ = true) (rest : List UInt8) :
    head b (b₁ :: rest) = .char (Char.ofNat ((b.toNat - 0xc0) * 64 + payload b₁)) rest := by
  unfold head
  simp only [UInt8.lt_iff_toNat_lt, UInt8.reduceToNat]
  rw [if_neg (by omega), if_neg (by omega), if_pos hb', if_pos h₁]

theorem head_of_three (hb : 0xe0 ≤ b.toNat) (hb' : b.toNat < 0xf0)
    (h₁ : allowsSecond b b₁ = true) (h₂ : isContinuation b₂ = true) (rest : List UInt8) :
    head b (b₁ :: b₂ :: rest) =
      .char (Char.ofNat ((b.toNat - 0xe0) * 4096 + payload b₁ * 64 + payload b₂)) rest := by
  unfold head
  simp only [UInt8.lt_iff_toNat_lt, UInt8.reduceToNat]
  rw [if_neg (by omega), if_neg (by omega), if_neg (by omega), if_pos hb', if_pos h₁, if_pos h₂]

theorem head_of_four (hb : 0xf0 ≤ b.toNat) (hb' : b.toNat < 0xf5)
    (h₁ : allowsSecond b b₁ = true) (h₂ : isContinuation b₂ = true)
    (h₃ : isContinuation b₃ = true) (rest : List UInt8) :
    head b (b₁ :: b₂ :: b₃ :: rest) =
      .char (Char.ofNat ((b.toNat - 0xf0) * 262144 + payload b₁ * 4096 + payload b₂ * 64 +
        payload b₃)) rest := by
  unfold head
  simp only [UInt8.lt_iff_toNat_lt, UInt8.reduceToNat]
  rw [if_neg (by omega), if_neg (by omega), if_neg (by omega), if_neg (by omega), if_pos hb',
    if_pos h₁, if_pos h₂, if_pos h₃]

theorem encodeChar_of_one (h : b.toNat < 0x80) : encodeChar (Char.ofNat b.toNat) = [b] := by
  unfold encodeChar
  rw [toNat_ofNat_of_isValidChar (by unfold Nat.isValidChar; omega)]
  simp only [if_pos h, UInt8.ofNat_toNat]

theorem encodeChar_of_two (hb : 0xc2 ≤ b.toNat) (hb' : b.toNat < 0xe0)
    (h₁ : allowsSecond b b₁ = true) :
    encodeChar (Char.ofNat ((b.toNat - 0xc0) * 64 + payload b₁)) = [b, b₁] := by
  rw [allowsSecond_iff] at h₁
  unfold encodeChar payload
  rw [toNat_ofNat_of_isValidChar (by unfold Nat.isValidChar; omega)]
  simp only
  rw [if_neg (by omega), if_pos (by omega)]
  simp only [List.cons.injEq, ← UInt8.toNat_inj, toNat_continuation, UInt8.toNat_ofNat', and_true]
  omega

theorem encodeChar_of_three (hb : 0xe0 ≤ b.toNat) (hb' : b.toNat < 0xf0)
    (h₁ : allowsSecond b b₁ = true) (h₂ : isContinuation b₂ = true) :
    encodeChar (Char.ofNat ((b.toNat - 0xe0) * 4096 + payload b₁ * 64 + payload b₂)) =
      [b, b₁, b₂] := by
  rw [allowsSecond_iff] at h₁
  rw [isContinuation_iff] at h₂
  unfold encodeChar payload
  rw [toNat_ofNat_of_isValidChar (by unfold Nat.isValidChar; omega)]
  simp only
  rw [if_neg (by omega), if_neg (by omega), if_pos (by omega)]
  simp only [List.cons.injEq, ← UInt8.toNat_inj, toNat_continuation, UInt8.toNat_ofNat', and_true]
  omega

theorem encodeChar_of_four (hb : 0xf0 ≤ b.toNat) (hb' : b.toNat < 0xf5)
    (h₁ : allowsSecond b b₁ = true) (h₂ : isContinuation b₂ = true)
    (h₃ : isContinuation b₃ = true) :
    encodeChar (Char.ofNat ((b.toNat - 0xf0) * 262144 + payload b₁ * 4096 + payload b₂ * 64 +
      payload b₃)) = [b, b₁, b₂, b₃] := by
  rw [allowsSecond_iff] at h₁
  rw [isContinuation_iff] at h₂ h₃
  unfold encodeChar payload
  rw [toNat_ofNat_of_isValidChar (by unfold Nat.isValidChar; omega)]
  simp only
  rw [if_neg (by omega), if_neg (by omega), if_neg (by omega)]
  simp only [List.cons.injEq, ← UInt8.toNat_inj, toNat_continuation, UInt8.toNat_ofNat', and_true]
  omega

end Lead

/-- What is read as a character are its bytes. -/
theorem eq_encodeChar_of_head {b : UInt8} {bs rest : List UInt8} {c : Char}
    (h : head b bs = .char c rest) : b :: bs = encodeChar c ++ rest := by
  revert h
  fun_cases head b bs with
  | case1 _ hb =>
    rintro ⟨⟩
    rw [encodeChar_of_one (UInt8.lt_iff_toNat_lt.1 hb)]
    rfl
  | case4 _ hb hb' b₁ after h₁ =>
    rintro ⟨⟩
    rw [UInt8.lt_iff_toNat_lt] at hb hb'
    rw [encodeChar_of_two (Nat.le_of_not_lt hb) hb' h₁]
    rfl
  | case8 _ _ hb hb' b₁ h₁ b₂ after h₂ =>
    rintro ⟨⟩
    rw [UInt8.lt_iff_toNat_lt] at hb hb'
    rw [encodeChar_of_three (Nat.le_of_not_lt hb) hb' h₁ h₂]
    rfl
  | case14 _ _ _ hb hb' b₁ h₁ b₂ h₂ b₃ after h₃ =>
    rintro ⟨⟩
    rw [UInt8.lt_iff_toNat_lt] at hb hb'
    rw [encodeChar_of_four (Nat.le_of_not_lt hb) hb' h₁ h₂ h₃]
    rfl
  | _ => nofun

/-- Where the bytes of a character stand, it is read. -/
theorem head_of_encodeChar {b : UInt8} {bs rest : List UInt8} {c : Char}
    (h : b :: bs = encodeChar c ++ rest) : head b bs = .char c rest := by
  have hv := isValidChar_toNat c
  unfold encodeChar at h
  simp only at h
  split_ifs at h with h₁ h₂ h₃ <;>
    simp only [List.cons_append, List.nil_append, List.cons.injEq] at h <;>
    obtain ⟨rfl, rfl⟩ := h
  · have hb : (UInt8.ofNat c.toNat).toNat = c.toNat :=
      UInt8.toNat_ofNat_of_lt' (by unfold UInt8.size; omega)
    rw [head_of_one (by omega), hb, Char.ofNat_toNat]
  · have hb : (UInt8.ofNat (0xc0 + c.toNat / 64)).toNat = 0xc0 + c.toNat / 64 :=
      UInt8.toNat_ofNat_of_lt' (by unfold UInt8.size; omega)
    have ha : allowsSecond (UInt8.ofNat (0xc0 + c.toNat / 64)) (continuation c.toNat) = true := by
      rw [allowsSecond_iff, hb, toNat_continuation]
      omega
    rw [head_of_two (by omega) (by omega) ha, hb, payload_continuation]
    rw [ofNat_eq_of_eq_toNat (c := c) (by omega)]
  · have hb : (UInt8.ofNat (0xe0 + c.toNat / 4096)).toNat = 0xe0 + c.toNat / 4096 :=
      UInt8.toNat_ofNat_of_lt' (by unfold UInt8.size; omega)
    have ha : allowsSecond (UInt8.ofNat (0xe0 + c.toNat / 4096))
        (continuation (c.toNat / 64)) = true := by
      rw [allowsSecond_iff, hb, toNat_continuation]
      omega
    rw [head_of_three (by omega) (by omega) ha (isContinuation_continuation _), hb,
      payload_continuation, payload_continuation]
    rw [ofNat_eq_of_eq_toNat (c := c) (by omega)]
  · have hb : (UInt8.ofNat (0xf0 + c.toNat / 262144)).toNat = 0xf0 + c.toNat / 262144 :=
      UInt8.toNat_ofNat_of_lt' (by unfold UInt8.size; omega)
    have ha : allowsSecond (UInt8.ofNat (0xf0 + c.toNat / 262144))
        (continuation (c.toNat / 4096)) = true := by
      rw [allowsSecond_iff, hb, toNat_continuation]
      omega
    rw [head_of_four (by omega) (by omega) ha (isContinuation_continuation _)
      (isContinuation_continuation _), hb, payload_continuation, payload_continuation,
      payload_continuation]
    rw [ofNat_eq_of_eq_toNat (c := c) (by omega)]

theorem encodeChar_ne_nil (c : Char) : encodeChar c ≠ [] := by
  rw [encodeChar_eq]
  exact String.utf8EncodeChar_ne_nil

/-- No character is the beginning of another. -/
theorem encodeChar_append_inj {c d : Char} {rest more : List UInt8}
    (h : encodeChar c ++ rest = encodeChar d ++ more) : c = d ∧ rest = more := by
  obtain ⟨b, bs, hb⟩ := List.exists_cons_of_ne_nil
    (List.append_ne_nil_of_left_ne_nil (encodeChar_ne_nil c) rest)
  have hc := head_of_encodeChar hb.symm
  rw [head_of_encodeChar (hb.symm.trans h)] at hc
  exact ⟨(Head.char.inj hc).1.symm, (Head.char.inj hc).2.symm⟩

/-! ## Characters in a row -/

def encodeChars (cs : List Char) : List UInt8 := cs.flatMap encodeChar

theorem encodeChars_cons (c : Char) (cs : List Char) :
    encodeChars (c :: cs) = encodeChar c ++ encodeChars cs := List.flatMap_cons

theorem encode_ofList (cs : List Char) : encode (String.ofList cs) = encodeChars cs := by
  rw [encode, String.toList_ofList, encodeChars]

/-- No character starts here. -/
def StartsNoChar (bytes : List UInt8) : Prop := ∀ c rest, bytes ≠ encodeChar c ++ rest

theorem startsNoChar_cons {b : UInt8} {bs : List UInt8}
    (h : ∀ c rest, head b bs ≠ .char c rest) : StartsNoChar (b :: bs) := by
  intro c rest hc
  exact h c rest (head_of_encodeChar hc)

theorem decodeFrom_cons (index : Nat) (b : UInt8) (bs : List UInt8) :
    decodeFrom index (b :: bs) =
      match head b bs with
      | .char c rest =>
        (decodeFrom (index + (bs.length + 1 - rest.length)) rest).map (c :: ·)
      | .invalid size => .error (.invalid size index)
      | .incomplete => .error (.incomplete index) := by
  rw [decodeFrom]
  split
  · next c rest h =>
    simp only [h]
    split <;> next he => rw [he]; rfl
  · next h => simp only [h]
  · next h => simp only [h]

/-- A character is read, and the index moves on by its bytes. -/
theorem decodeFrom_encodeChar (index : Nat) (c : Char) (rest : List UInt8) :
    decodeFrom index (encodeChar c ++ rest) =
      (decodeFrom (index + (encodeChar c).length) rest).map (c :: ·) := by
  obtain ⟨b, bs, hb⟩ := List.exists_cons_of_ne_nil
    (List.append_ne_nil_of_left_ne_nil (encodeChar_ne_nil c) rest)
  have hlen := congrArg List.length hb
  rw [List.length_append, List.length_cons] at hlen
  rw [hb, decodeFrom_cons, head_of_encodeChar hb.symm]
  simp only
  rw [← hlen, Nat.add_sub_cancel]

theorem decodeFrom_encodeChars (index : Nat) (cs : List Char) :
    decodeFrom index (encodeChars cs) = .ok cs := by
  induction cs generalizing index with
  | nil => rw [encodeChars, List.flatMap_nil, decodeFrom]
  | cons c cs ih => rw [encodeChars_cons, decodeFrom_encodeChar, ih, Except.map]

theorem eq_encodeChars_of_decodeFrom {index : Nat} {bytes : List UInt8} {cs : List Char}
    (h : decodeFrom index bytes = .ok cs) : bytes = encodeChars cs := by
  fun_induction decodeFrom index bytes generalizing cs with
  | case1 => cases h; rfl
  | case2 index b bs c rest hh read hr ih =>
    cases h
    rw [eq_encodeChar_of_head hh, ih hr, encodeChars_cons]
  | _ => cases h

/-- Characters are read up to a place where none starts, and the fault names that place. -/
theorem exists_of_decodeFrom_eq_error {index : Nat} {bytes : List UInt8} {fault : Fault}
    (h : decodeFrom index bytes = .error fault) :
    ∃ cs rest, bytes = encodeChars cs ++ rest ∧ StartsNoChar rest ∧
      fault.index = index + (encodeChars cs).length := by
  -- along the decoder: a character before the fault moves the index on by its bytes
  fun_induction decodeFrom index bytes generalizing fault with
  | case1 | case2 => cases h
  | case3 index b bs c rest hh fault' hr ih =>
    cases h
    have hb := eq_encodeChar_of_head hh
    have hlen := congrArg List.length hb
    rw [List.length_append, List.length_cons] at hlen
    obtain ⟨cs, after, he, hs, hi⟩ := ih hr
    refine ⟨c :: cs, after, ?_, hs, ?_⟩
    · rw [hb, encodeChars_cons, List.append_assoc, ← he]
    · rw [hi, encodeChars_cons, List.length_append]
      omega
  | case4 index b bs size hh =>
    cases h
    exact ⟨[], b :: bs, rfl, startsNoChar_cons (by simp [hh]), rfl⟩
  | case5 index b bs hh =>
    cases h
    exact ⟨[], b :: bs, rfl, startsNoChar_cons (by simp [hh]), rfl⟩

/-- No other characters stand further on before such a place. -/
theorem length_encodeChars_le {cs ds : List Char} {rest : List UInt8} (hs : StartsNoChar rest)
    (hp : encodeChars ds <+: encodeChars cs ++ rest) :
    (encodeChars ds).length ≤ (encodeChars cs).length := by
  induction ds generalizing cs with
  | nil => exact Nat.zero_le _
  | cons d ds ih =>
    obtain ⟨more, hp⟩ := hp
    rw [encodeChars_cons, List.append_assoc] at hp
    cases cs with
    | nil => exact (hs d _ hp.symm).elim
    | cons c cs =>
      rw [encodeChars_cons, List.append_assoc] at hp
      obtain ⟨rfl, ht⟩ := encodeChar_append_inj hp
      have hle := ih ⟨more, ht⟩
      rw [encodeChars_cons, encodeChars_cons, List.length_append, List.length_append]
      omega

/-! ## Texts -/

/-- The length of the longest beginning that is the bytes of a text. -/
def IsLongestText (bytes : List UInt8) (index : Nat) : Prop :=
  (∃ s, encode s <+: bytes ∧ (encode s).length = index) ∧
    ∀ s, encode s <+: bytes → (encode s).length ≤ index

/-- A text is read exactly from its bytes. -/
theorem decode_eq_ok_iff {bytes : List UInt8} {s : String} :
    decode bytes = .ok s ↔ encode s = bytes := by
  unfold decode
  constructor
  · intro h
    cases hd : decodeFrom 0 bytes with
    | ok cs =>
      rw [hd] at h
      cases h
      rw [eq_encodeChars_of_decodeFrom hd, encode_ofList]
    | error fault => rw [hd] at h; cases h
  · rintro rfl
    rw [encode, ← encodeChars, decodeFrom_encodeChars]
    exact congrArg Except.ok String.ofList_toList

/-- A fault names the length of the longest beginning that is a text. -/
theorem isLongestText_of_decode_eq_error {bytes : List UInt8} {fault : Fault}
    (h : decode bytes = .error fault) : IsLongestText bytes fault.index := by
  unfold decode at h
  cases hd : decodeFrom 0 bytes with
  | ok cs => rw [hd] at h; cases h
  | error found =>
    rw [hd] at h
    cases h
    obtain ⟨cs, rest, rfl, hs, hi⟩ := exists_of_decodeFrom_eq_error hd
    rw [hi, Nat.zero_add]
    refine ⟨⟨String.ofList cs, ?_, ?_⟩, fun s hp => length_encodeChars_le hs hp⟩
    · rw [encode_ofList]
      exact List.prefix_append _ _
    · rw [encode_ofList]

end ArrayStore.Utf8
