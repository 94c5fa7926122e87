import ArrayStore.Attribute
import ArrayStore.Proofs.Text.Utf8
import Mathlib.Data.List.Forall2

/-!
# Attributes: decoding undoes encoding

* `decode_eq_ok_iff` : a text is decoded exactly from its bytes;
* `mapM_decode_encode` : the entries of an encoded list decode to the list;
* `toBool_eq_ok_iff` : a boolean is read exactly from its token;
* `IsRefusedAt` : bytes are refused with a message that names an index;
* `exists_isRefusedAt` : bytes of no text are, at the end of their longest text;
* `decode_inverts_encode` : all of these together.
-/

namespace ArrayStore.Attribute

/-! ## Texts -/

theorem encode_text_eq_scalar_iff {s : String} {bytes : List UInt8} :
    encode (.text s) = .scalar bytes ↔ Utf8.encode s = bytes := by
  rw [encode, Encoded.scalar.injEq]

theorem decode_eq_ok_iff {bytes : List UInt8} {s : String} :
    decode bytes = .ok s ↔ Utf8.encode s = bytes := by
  rw [← Utf8.decode_eq_ok_iff, decode]
  cases Utf8.decode bytes with
  | ok read => simp only [Except.ok.injEq]
  | error fault => simp only [reduceCtorEq]

theorem mapM_decode_encode (texts : List String) :
    (texts.map Utf8.encode).mapM decode = .ok texts := by
  induction texts with
  | nil => rfl
  | cons text texts ih =>
    rw [List.map_cons, List.mapM_cons, decode_eq_ok_iff.2 rfl, ih]
    rfl

/-! ## Booleans -/

theorem toBool_eq_ok_iff {token : String} {value : Bool} :
    toBool token = .ok value ↔ ofBool value = token := by
  constructor
  · intro h
    unfold toBool at h
    split_ifs at h with ht hf
    · cases h; exact ht.symm
    · cases h; exact hf.symm
  · rintro rfl
    exact toBool_ofBool value

theorem decode_bind_toBool_eq_ok_iff {bytes : List UInt8} {value : Bool} :
    (decode bytes >>= toBool) = .ok value ↔ Utf8.encode (ofBool value) = bytes := by
  rw [← decode_eq_ok_iff]
  cases hd : decode bytes with
  | ok s =>
    show toBool s = .ok value ↔ _
    rw [toBool_eq_ok_iff, Except.ok.injEq, eq_comm]
  | error e => exact ⟨nofun, nofun⟩

/-! ## Bytes of no text -/

/-- The bytes are refused, and the message names this index. -/
def IsRefusedAt (bytes : List UInt8) (index : Nat) : Prop :=
  ∃ problem : String, decode bytes = .error
    (.decode ("attribute is not valid UTF-8: " ++ problem ++ " from index " ++ toString index))

theorem exists_message_eq (fault : Utf8.Fault) :
    ∃ problem : String, fault.message = problem ++ " from index " ++ toString fault.index := by
  cases fault with
  | invalid size index =>
    refine ⟨"invalid utf-8 sequence of " ++ toString size ++ " bytes", ?_⟩
    show "invalid utf-8 sequence of " ++ toString size ++ " bytes from index " ++ _ = _
    rw [show " bytes from index " = " bytes" ++ " from index " by decide, ← String.append_assoc]
    rfl
  | incomplete index => exact ⟨"incomplete utf-8 byte sequence", rfl⟩

/-- Bytes of no text are refused at the end of their longest text. -/
theorem exists_isRefusedAt {bytes : List UInt8} (h : ∀ s, Utf8.encode s ≠ bytes) :
    ∃ index, Utf8.IsLongestText bytes index ∧ IsRefusedAt bytes index := by
  cases hd : Utf8.decode bytes with
  | ok s => exact (h s (Utf8.decode_eq_ok_iff.1 hd)).elim
  | error fault =>
    obtain ⟨problem, hm⟩ := exists_message_eq fault
    refine ⟨fault.index, Utf8.isLongestText_of_decode_eq_error hd, problem, ?_⟩
    unfold decode
    rw [hd]
    simp only [hm, String.append_assoc]

/-! ## Attributes -/

/-- Decoding is the inverse of encoding, on texts, lists and booleans. The bytes of a text are its
UTF-8 form, and bytes that are the form of no text are refused with the length of the longest
beginning that is. -/
theorem decode_inverts_encode :
    (∀ s, encode (.text s) = .scalar s.toUTF8.data.toList) ∧
      (∀ bytes s, decode bytes = .ok s ↔ encode (.text s) = .scalar bytes) ∧
      (∀ texts, ∃ entries, encode (.texts texts) = .list entries ∧
        List.Forall₂ (fun text bytes => encode (.text text) = .scalar bytes) texts entries ∧
        entries.mapM decode = .ok texts) ∧
      (∀ bytes value, (decode bytes >>= toBool) = .ok value ↔
        encode (.bool value) = .scalar bytes) ∧
      ∀ bytes, (∀ s, encode (.text s) ≠ .scalar bytes) →
        ∃ index, Utf8.IsLongestText bytes index ∧ IsRefusedAt bytes index := by
  refine ⟨fun s => ?_, fun bytes s => ?_, fun texts => ?_, fun bytes value => ?_, fun bytes h => ?_⟩
  · rw [encode_text_eq_scalar_iff, ← Utf8.toByteArray_encode, List.data_toByteArray]
  · rw [decode_eq_ok_iff, encode_text_eq_scalar_iff]
  · refine ⟨texts.map Utf8.encode, rfl, ?_, mapM_decode_encode texts⟩
    rw [List.forall₂_map_right_iff, List.forall₂_same]
    intro text _
    rfl
  · rw [decode_bind_toBool_eq_ok_iff, encode, Encoded.scalar.injEq]
  · exact exists_isRefusedAt fun s hs => h s (encode_text_eq_scalar_iff.2 hs)

/-- A letter, and a surrogate in three bytes. -/
def surrogateBytes : List UInt8 := [0x41, 0xed, 0xa0, 0x80]

theorem decode_inverts_encode_surrogateBytes :
    (∀ s, encode (.text s) ≠ .scalar surrogateBytes) ∧
      ∃ index, Utf8.IsLongestText surrogateBytes index ∧ IsRefusedAt surrogateBytes index := by
  have hd : (decode surrogateBytes).isOk = false := by decide +kernel
  have h : ∀ s, encode (.text s) ≠ .scalar surrogateBytes := by
    intro s hs
    rw [(decode_inverts_encode.2.1 surrogateBytes s).2 hs] at hd
    cases hd
  exact ⟨h, decode_inverts_encode.2.2.2.2 surrogateBytes h⟩

end ArrayStore.Attribute
