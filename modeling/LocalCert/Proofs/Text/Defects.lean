import LocalCert.Proofs.Text.Decoding

/-
  The first defect of bytes that encode no text.  It stands
  where the longest sound part of them ends, and the message
  about it names that place.

  Main declarations:
    * `Text.Utf8.wellFormed_iff_isValidUTF8`
    * `Text.Utf8.LongestSound`
    * `Text.Utf8.longestSound_of_decode`
    * `Text.Utf8.DecodeError.tellsPlace_message`
-/

------------------------------------------------------------
-- The Standard Encoding
------------------------------------------------------------

namespace LocalCert

namespace Text

namespace Utf8

/- The bytes of a character are those of the standard. -/
theorem encodeChar_eq_utf8EncodeChar
    (c : Char) :
    encodeChar c = String.utf8EncodeChar c := by
  have hPoint := toNat_lt c
  have hStandard :
      String.utf8EncodeChar c =
        if c.toNat ≤ 127 then
          [UInt8.ofNat c.toNat]
        else if c.toNat ≤ 2047 then
          [UInt8.ofNat (c.toNat / 64 % 32 + 192),
            UInt8.ofNat (c.toNat % 64 + 128)]
        else if c.toNat ≤ 65535 then
          [UInt8.ofNat (c.toNat / 4096 % 16 + 224),
            UInt8.ofNat (c.toNat / 64 % 64 + 128),
            UInt8.ofNat (c.toNat % 64 + 128)]
        else
          [UInt8.ofNat (c.toNat / 262144 % 8 + 240),
            UInt8.ofNat (c.toNat / 4096 % 64 + 128),
            UInt8.ofNat (c.toNat / 64 % 64 + 128),
            UInt8.ofNat (c.toNat % 64 + 128)] := rfl
  have hNext :
      ∀ n, continuation n = UInt8.ofNat (n % 64 + 128) := by
    intro n
    rw [continuation, Nat.add_comm]
  rw [hStandard]
  simp only [encodeChar, hNext]
  generalize c.toNat = n at hPoint
  by_cases hOne : n < 0x80
  · rw [if_pos hOne, if_pos (show n ≤ 127 by omega)]
  · rw [if_neg hOne, if_neg (show ¬ n ≤ 127 by omega)]
    by_cases hTwo : n < 0x800
    · have hFirst :
          0xC0 + n / 0x40 = n / 64 % 32 + 192 := by
        omega
      rw [if_pos hTwo, if_pos (show n ≤ 2047 by omega),
        hFirst]
    · rw [if_neg hTwo, if_neg (show ¬ n ≤ 2047 by omega)]
      by_cases hThree : n < 0x10000
      · have hFirst :
            0xE0 + n / 0x1000 = n / 4096 % 16 + 224 := by
          omega
        rw [if_pos hThree, if_pos (show n ≤ 65535 by omega),
          hFirst]
      · have hFirst :
            0xF0 + n / 0x40000 = n / 262144 % 8 + 240 := by
          omega
        rw [if_neg hThree,
          if_neg (show ¬ n ≤ 65535 by omega), hFirst]

/- The well-formed bytes are those that the standard allows. -/
theorem wellFormed_iff_isValidUTF8
    {bytes : List UInt8} :
    WellFormed bytes ↔ bytes.toByteArray.IsValidUTF8 := by
  have hEncode :
      ∀ cs, (encode cs).toByteArray = cs.utf8Encode := by
    intro cs
    rw [encode, funext encodeChar_eq_utf8EncodeChar,
      List.utf8Encode]
  constructor
  · rintro ⟨cs, rfl⟩
    exact ⟨cs, hEncode cs⟩
  · rintro ⟨cs, hBytes⟩
    rw [← hEncode] at hBytes
    exact ⟨cs, (List.toByteArray_inj.mp hBytes).symm⟩

------------------------------------------------------------
-- The Longest Sound Part
------------------------------------------------------------

/-
  Whether a part at the front of some bytes is well formed,
  and no longer part is.
-/
structure LongestSound
    (bytes front : List UInt8) : Prop where
  leads : front <+: bytes
  sound : WellFormed front
  longest :
    ∀ other, other <+: bytes → WellFormed other →
      other.length ≤ front.length

/-
  A well-formed part that is not empty starts with the
  character that is read.
-/
theorem head_of_wellFormed
    {bytes front : List UInt8}
    (hLeads : front <+: bytes)
    (hSound : WellFormed front)
    (hSome : front ≠ []) :
    ∃ c more rest,
      WellFormed more ∧
        front = encodeChar c ++ more ∧
        head bytes = .char c (encodeChar c).length rest ∧
        more <+: rest := by
  rcases hLeads with ⟨after, rfl⟩
  rcases hSound with ⟨cs, rfl⟩
  cases cs with
  | nil => exact absurd rfl hSome
  | cons c cs =>
      refine
        ⟨c, encode cs, encode cs ++ after, ⟨cs, rfl⟩, rfl,
          ?_, List.prefix_append _ _⟩
      rw [encode, List.flatMap_cons, List.append_assoc]
      exact head_encodeChar c _

/- At a broken character no sound part goes on. -/
theorem longestSound_of_broken
    {bytes : List UInt8}
    {byte : UInt8}
    {width : Nat}
    {defect : Defect}
    (hHead : head bytes = .broken byte width defect) :
    LongestSound bytes [] := by
  refine ⟨List.nil_prefix, ⟨[], rfl⟩, ?_⟩
  intro other hLeads hSound
  by_cases hSome : other = []
  · simp [hSome]
  · rcases head_of_wellFormed hLeads hSound hSome with
      ⟨c, more, rest, _, _, hChar, _⟩
    rw [hHead] at hChar
    cases hChar

/- A character in front makes the sound part longer by it. -/
theorem LongestSound.cons
    {rest front : List UInt8}
    (hLongest : LongestSound rest front)
    (c : Char) :
    LongestSound (encodeChar c ++ rest)
      (encodeChar c ++ front) := by
  refine ⟨?_, ?_, ?_⟩
  · exact (List.prefix_append_right_inj _).mpr
      hLongest.leads
  · rcases hLongest.sound with ⟨cs, rfl⟩
    exact ⟨c :: cs, rfl⟩
  · intro other hLeads hSound
    by_cases hSome : other = []
    · simp [hSome]
    · rcases head_of_wellFormed hLeads hSound hSome with
        ⟨d, more, after, hMore, rfl, hChar, hBelow⟩
      rw [head_encodeChar] at hChar
      rcases Head.char.inj hChar with ⟨rfl, -, rfl⟩
      have hLess := hLongest.longest more hBelow hMore
      simpa using hLess

/- The byte of a broken character is its first one. -/
theorem head?_of_broken
    {bytes : List UInt8}
    {byte : UInt8}
    {width : Nat}
    {defect : Defect}
    (hHead : head bytes = .broken byte width defect) :
    bytes.head? = some byte := by
  cases bytes with
  | nil => cases hHead
  | cons a rest =>
      simp only [head] at hHead
      repeat' (first
        | (split at hHead)
        | (simp only [headTwo, headThree, headFour] at hHead))
      all_goals
        first
        | (cases hHead
           rfl)
        | (cases hHead)

/-
  The first defect stands behind the longest sound part, and
  its byte is the next one.
-/
theorem longestSound_of_decodeFrom
    {offset : Nat}
    {bytes : List UInt8}
    {e : DecodeError}
    (hDecode : decodeFrom offset bytes = .error e) :
    ∃ front,
      LongestSound bytes front ∧
        e.offset = offset + front.length ∧
        (bytes.drop front.length).head? = some e.byte := by
  fun_induction decodeFrom offset bytes generalizing e with
  | case1 => cases hDecode
  | case2 offset bytes byte width defect hHead =>
      cases hDecode
      exact
        ⟨[], longestSound_of_broken hHead, rfl,
          head?_of_broken hHead⟩
  | case3 => cases hDecode
  | case4 offset bytes c width rest hHead f hRest ih =>
      cases hDecode
      rcases ih hRest with
        ⟨front, hLongest, hOffset, hByte⟩
      have hBytes := head_eq_char hHead
      rw [hBytes, head_encodeChar] at hHead
      rcases Head.char.inj hHead with ⟨-, rfl, -⟩
      refine ⟨encodeChar c ++ front, ?_, ?_, ?_⟩
      · rw [hBytes]
        exact hLongest.cons c
      · rw [hOffset, List.length_append, Nat.add_assoc]
      · rw [hBytes, List.length_append, ← List.drop_drop,
          List.drop_left]
        exact hByte

theorem longestSound_of_decode
    {bytes : List UInt8}
    {e : DecodeError}
    (hDecode : decode bytes = .error e) :
    ∃ front,
      LongestSound bytes front ∧
        e.offset = front.length ∧
        bytes[e.offset]? = some e.byte := by
  rcases longestSound_of_decodeFrom hDecode with
    ⟨front, hLongest, hOffset, hByte⟩
  rw [Nat.zero_add] at hOffset
  refine ⟨front, hLongest, hOffset, ?_⟩
  rw [hOffset, ← hByte, List.head?_drop]

------------------------------------------------------------
-- Messages
------------------------------------------------------------

/-
  Whether a message tells where a broken character starts:
  its one byte with its position, or the first and the last
  position of its bytes.
-/
inductive TellsPlace
    (n : Nat) (byte : UInt8) : String → Prop where
  | one
      (reason : String) :
      TellsPlace n byte
        ("'utf-8' codec can't decode " ++
          ("byte 0x" ++
            String.ofList (hexDigits 2 byte.toNat) ++
            " in position " ++ toString n) ++
          ": " ++ reason)
  | many
      (last : Nat)
      (reason : String) :
      TellsPlace n byte
        ("'utf-8' codec can't decode " ++
          ("bytes in position " ++ toString n ++ "-" ++
            toString last) ++
          ": " ++ reason)

theorem DecodeError.tellsPlace_message
    (e : DecodeError) :
    TellsPlace e.offset e.byte e.message := by
  unfold message
  by_cases hOne : e.width = 1
  · rw [if_pos (by simpa using hOne)]
    exact .one e.defect.message
  · rw [if_neg (by simpa using hOne)]
    exact .many (e.offset + e.width - 1) e.defect.message

end Utf8

end Text

end LocalCert
