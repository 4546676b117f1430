import LocalCert.Text.Digit

/-
  UTF-8: the encoding of Unicode scalar values, and strict
  decoding, which names the first defect of a list of bytes
  and its place.

  Key definitions include:
    * `Text.Utf8.encode`
    * `Text.Utf8.Defect`
    * `Text.Utf8.DecodeError`
    * `Text.Utf8.DecodeError.message`
    * `Text.Utf8.head`
    * `Text.Utf8.decode`
    * `Text.Utf8.WellFormed`
-/

------------------------------------------------------------
-- Encoding
------------------------------------------------------------

namespace LocalCert

namespace Text

namespace Utf8

/- A byte that continues a character. -/
def continuation
    (n : Nat) : UInt8 :=
  UInt8.ofNat (0x80 + n % 0x40)

/- The one to four bytes of a character. -/
def encodeChar
    (c : Char) : List UInt8 :=
  let n := c.toNat
  if n < 0x80 then
    [UInt8.ofNat n]
  else if n < 0x800 then
    [UInt8.ofNat (0xC0 + n / 0x40), continuation n]
  else if n < 0x10000 then
    [UInt8.ofNat (0xE0 + n / 0x1000),
      continuation (n / 0x40), continuation n]
  else
    [UInt8.ofNat (0xF0 + n / 0x40000),
      continuation (n / 0x1000),
      continuation (n / 0x40), continuation n]

/- The bytes of a list of characters. -/
def encode
    (cs : List Char) : List UInt8 :=
  cs.flatMap encodeChar

/- The bytes of a text. -/
def encodeText
    (s : String) : List UInt8 :=
  encode s.toList

/- A list of bytes that encodes some characters. -/
def WellFormed
    (bytes : List UInt8) : Prop :=
  ∃ cs, encode cs = bytes

------------------------------------------------------------
-- Defects
------------------------------------------------------------

/- What is wrong with the bytes at a place. -/
inductive Defect where
  /- No character starts with this byte. -/
  | badStart
  /- A character is broken off by a byte not its own. -/
  | badContinuation
  /- The bytes end within a character. -/
  | endOfData
  deriving DecidableEq, Repr, Inhabited

/- The words for a defect. -/
def Defect.message : Defect → String
  | .badStart => "invalid start byte"
  | .badContinuation => "invalid continuation byte"
  | .endOfData => "unexpected end of data"

/-
  The first defect: the offset of the character that is
  broken, its first byte, and the number of bytes read of
  it.
-/
structure DecodeError where
  offset : Nat
  byte : UInt8
  width : Nat
  defect : Defect
  deriving DecidableEq, Repr, Inhabited

/- The message for the first defect. -/
def DecodeError.message
    (e : DecodeError) : String :=
  let place :=
    if e.width == 1 then
      "byte 0x" ++
        String.ofList (hexDigits 2 e.byte.toNat) ++
        " in position " ++ toString e.offset
    else
      "bytes in position " ++ toString e.offset ++ "-" ++
        toString (e.offset + e.width - 1)
  "'utf-8' codec can't decode " ++ place ++ ": " ++
    e.defect.message

------------------------------------------------------------
-- Decoding
------------------------------------------------------------

/- Whether a byte continues a character. -/
def isContinuation
    (b : UInt8) : Bool :=
  0x80 ≤ b && b ≤ 0xBF

/-
  Whether a byte may be the second of the character that
  starts with the given byte: the shortest form, no
  surrogates, nothing above the last code point.
-/
def isSecond
    (a b : UInt8) : Bool :=
  isContinuation b &&
    (a != 0xE0 || 0xA0 ≤ b) &&
    (a != 0xED || b ≤ 0x9F) &&
    (a != 0xF0 || 0x90 ≤ b) &&
    (a != 0xF4 || b ≤ 0x8F)

/- The six payload bits of a continuation byte. -/
def payload
    (b : UInt8) : Nat :=
  b.toNat - 0x80

/- What stands at the front of some bytes. -/
inductive Head where
  | empty
  | char (c : Char) (width : Nat) (rest : List UInt8)
  | broken (byte : UInt8) (width : Nat) (defect : Defect)
  deriving Repr

/- Two bytes: the first is between C2 and DF. -/
def headTwo
    (a : UInt8)
    (rest : List UInt8) : Head :=
  match rest with
  | [] => .broken a 1 .endOfData
  | b :: r =>
      if isSecond a b then
        .char
          (Char.ofNat
            ((a.toNat - 0xC0) * 0x40 + payload b)) 2 r
      else
        .broken a 1 .badContinuation

/- Three bytes: the first is between E0 and EF. -/
def headThree
    (a : UInt8)
    (rest : List UInt8) : Head :=
  match rest with
  | [] => .broken a 1 .endOfData
  | b :: r =>
      if !isSecond a b then
        .broken a 1 .badContinuation
      else
        match r with
        | [] => .broken a 2 .endOfData
        | c :: r =>
            if isContinuation c then
              .char
                (Char.ofNat
                  ((a.toNat - 0xE0) * 0x1000 +
                    payload b * 0x40 + payload c)) 3 r
            else
              .broken a 2 .badContinuation

/- Four bytes: the first is between F0 and F4. -/
def headFour
    (a : UInt8)
    (rest : List UInt8) : Head :=
  match rest with
  | [] => .broken a 1 .endOfData
  | b :: r =>
      if !isSecond a b then
        .broken a 1 .badContinuation
      else
        match r with
        | [] => .broken a 2 .endOfData
        | c :: r =>
            if !isContinuation c then
              .broken a 2 .badContinuation
            else
              match r with
              | [] => .broken a 3 .endOfData
              | d :: r =>
                  if isContinuation d then
                    .char
                      (Char.ofNat
                        ((a.toNat - 0xF0) * 0x40000 +
                          payload b * 0x1000 +
                          payload c * 0x40 + payload d))
                      4 r
                  else
                    .broken a 3 .badContinuation

/- Read the character at the front. -/
def head
    (bytes : List UInt8) : Head :=
  match bytes with
  | [] => .empty
  | a :: rest =>
      if a < 0x80 then
        .char (Char.ofNat a.toNat) 1 rest
      else if a < 0xC2 then
        .broken a 1 .badStart
      else if a < 0xE0 then
        headTwo a rest
      else if a < 0xF0 then
        headThree a rest
      else if a < 0xF5 then
        headFour a rest
      else
        .broken a 1 .badStart

/- A character takes at least one byte. -/
theorem head_char_length
    {bytes rest : List UInt8}
    {c : Char}
    {width : Nat}
    (h : head bytes = .char c width rest) :
    rest.length < bytes.length := by
  cases bytes with
  | nil => simp [head] at h
  | cons a r =>
      simp only [head] at h
      repeat' (first
        | (split at h)
        | (simp only [headTwo, headThree, headFour] at h))
      all_goals
        first
        | (simp only [Head.char.injEq] at h
           obtain ⟨-, -, rfl⟩ := h
           simp only [List.length_cons]
           omega)
        | (simp at h)

/- Decode bytes that start at the given offset. -/
def decodeFrom
    (offset : Nat)
    (bytes : List UInt8) :
    Except DecodeError (List Char) :=
  match _h : head bytes with
  | .empty => .ok []
  | .broken byte width defect =>
      .error ⟨offset, byte, width, defect⟩
  | .char c width rest =>
      match decodeFrom (offset + width) rest with
      | .ok cs => .ok (c :: cs)
      | .error e => .error e
termination_by bytes.length
decreasing_by exact head_char_length _h

/- Decode a list of bytes strictly. -/
def decode
    (bytes : List UInt8) :
    Except DecodeError (List Char) :=
  decodeFrom 0 bytes

/- The text of well-formed bytes. -/
def decodeText?
    (bytes : List UInt8) : Option String :=
  match decode bytes with
  | .ok cs => some (String.ofList cs)
  | .error _ => none

end Utf8

end Text

end LocalCert
