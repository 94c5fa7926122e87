/-!
# UTF-8

* `Utf8.encodeChar`, `Utf8.encode` : the bytes of a character and of a text;
* `Utf8.Head`, `Utf8.head` : what the first bytes of a non-empty byte sequence hold;
* `Utf8.decode` : the text, or a `Utf8.Fault` with the length of the longest part that is a text;
* `Utf8.Fault.message` : the wording of a fault.
-/

namespace ArrayStore.Utf8

/-! ## Writing -/

/-- The continuation byte that carries the low six bits of `n`. -/
def continuation (n : Nat) : UInt8 := UInt8.ofNat (0x80 + n % 64)

/-- One to four bytes, by the size of the code point. -/
def encodeChar (c : Char) : List UInt8 :=
  let n := c.toNat
  if n < 0x80 then [UInt8.ofNat n]
  else if n < 0x800 then [UInt8.ofNat (0xc0 + n / 64), continuation n]
  else if n < 0x10000 then
    [UInt8.ofNat (0xe0 + n / 4096), continuation (n / 64), continuation n]
  else
    [UInt8.ofNat (0xf0 + n / 262144), continuation (n / 4096), continuation (n / 64),
      continuation n]

def encode (s : String) : List UInt8 := s.toList.flatMap encodeChar

/-! ## Reading -/

/-- What a byte sequence starts with. -/
inductive Head where
  /-- A character and the bytes after it. -/
  | char (c : Char) (rest : List UInt8)
  /-- This many bytes that start no character, whatever follows. -/
  | invalid (size : Nat)
  /-- The beginning of a character whose other bytes are missing. -/
  | incomplete
  deriving Repr, DecidableEq

def isContinuation (b : UInt8) : Bool := 0x80 ≤ b && b ≤ 0xbf

/-- The range of the second byte after a lead byte: it keeps out overlong forms, surrogates and
values above `0x10ffff`. -/
def secondRange (lead : UInt8) : UInt8 × UInt8 :=
  if lead = 0xe0 then (0xa0, 0xbf)
  else if lead = 0xed then (0x80, 0x9f)
  else if lead = 0xf0 then (0x90, 0xbf)
  else if lead = 0xf4 then (0x80, 0x8f)
  else (0x80, 0xbf)

/-- The byte may follow the lead byte. -/
def allowsSecond (lead b : UInt8) : Bool :=
  (secondRange lead).1 ≤ b && b ≤ (secondRange lead).2

def payload (b : UInt8) : Nat := b.toNat % 64

/-- Reads one character. A byte that cannot stand where it stands ends the reading, and the bytes
before it are what is reported. -/
def head (b : UInt8) (rest : List UInt8) : Head :=
  if b < 0x80 then .char (Char.ofNat b.toNat) rest
  else if b < 0xc2 then .invalid 1
  else if b < 0xe0 then
    match rest with
    | [] => .incomplete
    | b₁ :: rest =>
      if allowsSecond b b₁ then
        .char (Char.ofNat ((b.toNat - 0xc0) * 64 + payload b₁)) rest
      else .invalid 1
  else if b < 0xf0 then
    match rest with
    | [] => .incomplete
    | b₁ :: rest =>
      if allowsSecond b b₁ then
        match rest with
        | [] => .incomplete
        | b₂ :: rest =>
          if isContinuation b₂ then
            .char (Char.ofNat ((b.toNat - 0xe0) * 4096 + payload b₁ * 64 + payload b₂)) rest
          else .invalid 2
      else .invalid 1
  else if b < 0xf5 then
    match rest with
    | [] => .incomplete
    | b₁ :: rest =>
      if allowsSecond b b₁ then
        match rest with
        | [] => .incomplete
        | b₂ :: rest =>
          if isContinuation b₂ then
            match rest with
            | [] => .incomplete
            | b₃ :: rest =>
              if isContinuation b₃ then
                .char (Char.ofNat ((b.toNat - 0xf0) * 262144 + payload b₁ * 4096 +
                  payload b₂ * 64 + payload b₃)) rest
              else .invalid 3
          else .invalid 2
      else .invalid 1
  else .invalid 1

theorem length_le_of_head {b : UInt8} {bs rest : List UInt8} {c : Char}
    (h : head b bs = .char c rest) : rest.length ≤ bs.length := by
  unfold head at h
  repeat' split at h
  all_goals simp_all
  all_goals obtain ⟨-, rfl⟩ := h
  all_goals omega

/-- Why bytes are no text. `index` is the length of the longest beginning that is one. -/
inductive Fault where
  | invalid (size index : Nat)
  | incomplete (index : Nat)
  deriving Repr, DecidableEq

/-- The length of the longest beginning that is a text. -/
def Fault.index : Fault → Nat
  | .invalid _ index => index
  | .incomplete index => index

def Fault.message : Fault → String
  | .invalid size index => s!"invalid utf-8 sequence of {size} bytes from index {index}"
  | .incomplete index => s!"incomplete utf-8 byte sequence from index {index}"

/-- Reads characters up to the end; `index` bytes have been read before. -/
def decodeFrom (index : Nat) : List UInt8 → Except Fault (List Char)
  | [] => .ok []
  | b :: bs =>
    match _h : head b bs with
    | .char c rest =>
      match decodeFrom (index + (bs.length + 1 - rest.length)) rest with
      | .ok cs => .ok (c :: cs)
      | .error fault => .error fault
    | .invalid size => .error (.invalid size index)
    | .incomplete => .error (.incomplete index)
  termination_by bytes => bytes.length
  decreasing_by
    have := length_le_of_head _h
    simp only [List.length_cons]; omega

def decode (bytes : List UInt8) : Except Fault String :=
  (decodeFrom 0 bytes).map String.ofList

end ArrayStore.Utf8
