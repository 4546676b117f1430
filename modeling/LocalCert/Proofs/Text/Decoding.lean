import LocalCert.Text.Utf8

/-
  Decoding what was encoded: every list of characters is
  given back, character by character, and nothing else is
  decoded than what encodes it.

  Main declarations:
    * `Text.Utf8.head_encodeChar`
    * `Text.Utf8.decode_encode`
    * `Text.Utf8.decode_eq_ok_iff`
    * `Text.Utf8.WellFormed.exists_decode`
-/

------------------------------------------------------------
-- Code Points
------------------------------------------------------------

namespace LocalCert

namespace Text

/- The number of a character is a code point. -/
theorem toNat_lt
    (c : Char) :
    c.toNat < 0x110000 := by
  rcases c.valid with hLow | ⟨_, hHigh⟩
  · exact Nat.lt_trans hLow (by decide)
  · exact hHigh

/- No character is half a surrogate pair. -/
theorem not_surrogate
    (c : Char) :
    c.toNat < 0xD800 ∨ 0xDFFF < c.toNat := by
  rcases c.valid with hLow | ⟨hHigh, _⟩
  · exact .inl hLow
  · exact .inr hHigh

------------------------------------------------------------
-- Bytes As Numbers
------------------------------------------------------------

namespace Utf8

theorem toNat_ofNat_of_lt
    {n : Nat}
    (hByte : n < 256) :
    (UInt8.ofNat n).toNat = n := by
  rw [UInt8.toNat_ofNat', Nat.mod_eq_of_lt hByte]

theorem toNat_continuation
    (n : Nat) :
    (continuation n).toNat = 0x80 + n % 0x40 := by
  unfold continuation
  exact toNat_ofNat_of_lt (by omega)

theorem payload_continuation
    (n : Nat) :
    payload (continuation n) = n % 0x40 := by
  have hByte := toNat_continuation n
  unfold payload
  omega

theorem isContinuation_iff
    (b : UInt8) :
    isContinuation b = true ↔
      0x80 ≤ b.toNat ∧ b.toNat ≤ 0xBF := by
  simp [isContinuation, UInt8.le_iff_toNat_le]

theorem isContinuation_continuation
    (n : Nat) :
    isContinuation (continuation n) = true := by
  rw [isContinuation_iff, toNat_continuation]
  omega

theorem isSecond_iff
    (a b : UInt8) :
    isSecond a b = true ↔
      (0x80 ≤ b.toNat ∧ b.toNat ≤ 0xBF) ∧
        (a.toNat = 0xE0 → 0xA0 ≤ b.toNat) ∧
        (a.toNat = 0xED → b.toNat ≤ 0x9F) ∧
        (a.toNat = 0xF0 → 0x90 ≤ b.toNat) ∧
        (a.toNat = 0xF4 → b.toNat ≤ 0x8F) := by
  simp only [isSecond, Bool.and_eq_true, Bool.or_eq_true,
    isContinuation_iff, bne_iff_ne, ne_eq,
    decide_eq_true_eq, UInt8.le_iff_toNat_le,
    ← UInt8.toNat_inj, UInt8.reduceToNat]
  omega

------------------------------------------------------------
-- Single Characters
------------------------------------------------------------

/- The character that was encoded stands at the front. -/
theorem head_encodeChar
    (c : Char)
    (rest : List UInt8) :
    head (encodeChar c ++ rest) =
      .char c (encodeChar c).length rest := by
  have hValid :
      c.toNat < 0xD800 ∨
        0xDFFF < c.toNat ∧ c.toNat < 0x110000 := c.valid
  have hChar : Char.ofNat c.toNat = c := Char.ofNat_toNat c
  unfold encodeChar
  simp only
  generalize c.toNat = n at hValid hChar
  split
  · have hFirst := toNat_ofNat_of_lt (n := n) (by omega)
    simp only [head, List.cons_append, List.nil_append,
      UInt8.lt_iff_toNat_lt, UInt8.reduceToNat, hFirst,
      hChar]
    rw [if_pos ‹_›]
    rfl
  · split
    · have hFirst :=
        toNat_ofNat_of_lt (n := 0xC0 + n / 0x40) (by omega)
      have hSecond :
          isSecond (UInt8.ofNat (0xC0 + n / 0x40))
            (continuation n) = true := by
        rw [isSecond_iff, hFirst, toNat_continuation]
        omega
      have hValue :
          (0xC0 + n / 0x40 - 0xC0) * 0x40 + n % 0x40 =
            n := by
        omega
      simp only [head, headTwo, List.cons_append,
        List.nil_append, UInt8.lt_iff_toNat_lt,
        UInt8.reduceToNat, hFirst, hSecond, if_true,
        payload_continuation, hValue, hChar]
      rw [if_neg (by omega), if_neg (by omega),
        if_pos (by omega)]
      rfl
    · split
      · have hFirst :=
          toNat_ofNat_of_lt (n := 0xE0 + n / 0x1000)
            (by omega)
        have hSecond :
            isSecond (UInt8.ofNat (0xE0 + n / 0x1000))
              (continuation (n / 0x40)) = true := by
          rw [isSecond_iff, hFirst, toNat_continuation]
          omega
        have hValue :
            (0xE0 + n / 0x1000 - 0xE0) * 0x1000 +
                n / 0x40 % 0x40 * 0x40 + n % 0x40 =
              n := by
          omega
        simp only [head, headThree, List.cons_append,
          List.nil_append, UInt8.lt_iff_toNat_lt,
          UInt8.reduceToNat, hFirst, hSecond, if_true,
          isContinuation_continuation, Bool.not_true,
          Bool.false_eq_true, if_false,
          payload_continuation, hValue, hChar]
        rw [if_neg (by omega), if_neg (by omega),
          if_neg (by omega), if_pos (by omega)]
        rfl
      · have hFirst :=
          toNat_ofNat_of_lt (n := 0xF0 + n / 0x40000)
            (by omega)
        have hSecond :
            isSecond (UInt8.ofNat (0xF0 + n / 0x40000))
              (continuation (n / 0x1000)) = true := by
          rw [isSecond_iff, hFirst, toNat_continuation]
          omega
        have hValue :
            (0xF0 + n / 0x40000 - 0xF0) * 0x40000 +
                n / 0x1000 % 0x40 * 0x1000 +
                n / 0x40 % 0x40 * 0x40 + n % 0x40 =
              n := by
          omega
        simp only [head, headFour, List.cons_append,
          List.nil_append, UInt8.lt_iff_toNat_lt,
          UInt8.reduceToNat, hFirst, hSecond, if_true,
          isContinuation_continuation, Bool.not_true,
          Bool.false_eq_true, if_false,
          payload_continuation, hValue, hChar]
        rw [if_neg (by omega), if_neg (by omega),
          if_neg (by omega), if_neg (by omega),
          if_pos (by omega)]
        rfl

------------------------------------------------------------
-- Texts
------------------------------------------------------------

theorem decodeFrom_encode
    (cs : List Char)
    (offset : Nat) :
    decodeFrom offset (encode cs) = .ok cs := by
  induction cs generalizing offset with
  | nil =>
      rw [decodeFrom]
      rfl
  | cons c cs ih =>
      have hHead :
          head (encode (c :: cs)) =
            .char c (encodeChar c).length (encode cs) := by
        rw [encode, List.flatMap_cons]
        exact head_encodeChar c (encode cs)
      rw [decodeFrom]
      split
      · next hRead =>
          rw [hHead] at hRead
          cases hRead
      · next hRead =>
          rw [hHead] at hRead
          cases hRead
      · next hRead =>
          rw [hHead] at hRead
          cases hRead
          rw [ih]

theorem decode_encode
    (cs : List Char) :
    decode (encode cs) = .ok cs :=
  decodeFrom_encode cs 0

------------------------------------------------------------
-- Exact Decoding
------------------------------------------------------------

theorem ofNat_eq
    {b : UInt8}
    {n : Nat}
    (hByte : n = b.toNat) :
    UInt8.ofNat n = b := by
  rw [hByte, UInt8.ofNat_toNat]

/- A byte that continues, by its payload. -/
theorem continuation_eq
    {b : UInt8}
    {n : Nat}
    (hContinues : 0x80 ≤ b.toNat ∧ b.toNat ≤ 0xBF)
    (hPayload : n % 0x40 = payload b) :
    continuation n = b := by
  unfold payload at hPayload
  exact ofNat_eq (by omega)

theorem toNat_ofNat
    {n : Nat}
    (hValid : n < 0xD800 ∨ 0xDFFF < n ∧ n < 0x110000) :
    (Char.ofNat n).toNat = n := by
  rw [Char.ofNat, dif_pos hValid]
  rfl

theorem headTwo_eq_char
    {a : UInt8}
    {bytes rest : List UInt8}
    {c : Char}
    {width : Nat}
    (hFirst : 0xC2 ≤ a.toNat ∧ a.toNat < 0xE0)
    (hHead : headTwo a bytes = .char c width rest) :
    a :: bytes = encodeChar c ++ rest := by
  cases bytes with
  | nil => cases hHead
  | cons b bytes =>
      simp only [headTwo] at hHead
      split at hHead
      · next hSecond =>
          rw [isSecond_iff] at hSecond
          rcases Head.char.inj hHead with ⟨rfl, -, rfl⟩
          have hPayload : payload b = b.toNat - 0x80 := rfl
          have hNumber :=
            toNat_ofNat
              (n := (a.toNat - 0xC0) * 0x40 + payload b)
              (by omega)
          simp only [encodeChar, hNumber]
          rw [if_neg (by omega), if_pos (by omega),
            ofNat_eq (b := a) (by omega),
            continuation_eq hSecond.1 (by omega)]
          rfl
      · cases hHead

theorem headThree_eq_char
    {a : UInt8}
    {bytes rest : List UInt8}
    {c : Char}
    {width : Nat}
    (hFirst : 0xE0 ≤ a.toNat ∧ a.toNat < 0xF0)
    (hHead : headThree a bytes = .char c width rest) :
    a :: bytes = encodeChar c ++ rest := by
  match bytes with
  | [] => cases hHead
  | [b] =>
      simp only [headThree] at hHead
      split at hHead <;> cases hHead
  | b :: d :: bytes =>
      simp only [headThree] at hHead
      split at hHead
      · cases hHead
      · next hSecond =>
          simp only [Bool.not_eq_true', Bool.not_eq_false,
            isSecond_iff] at hSecond
          split at hHead
          · next hThird =>
              rw [isContinuation_iff] at hThird
              rcases Head.char.inj hHead with ⟨rfl, -, rfl⟩
              have hPayload :
                  payload b = b.toNat - 0x80 := rfl
              have hNext : payload d = d.toNat - 0x80 := rfl
              have hNumber :=
                toNat_ofNat
                  (n :=
                    (a.toNat - 0xE0) * 0x1000 +
                      payload b * 0x40 + payload d)
                  (by omega)
              simp only [encodeChar, hNumber]
              rw [if_neg (by omega), if_neg (by omega),
                if_pos (by omega),
                ofNat_eq (b := a) (by omega),
                continuation_eq hSecond.1 (by omega),
                continuation_eq hThird (by omega)]
              rfl
          · cases hHead

theorem headFour_eq_char
    {a : UInt8}
    {bytes rest : List UInt8}
    {c : Char}
    {width : Nat}
    (hFirst : 0xF0 ≤ a.toNat ∧ a.toNat < 0xF5)
    (hHead : headFour a bytes = .char c width rest) :
    a :: bytes = encodeChar c ++ rest := by
  match bytes with
  | [] => cases hHead
  | [b] =>
      simp only [headFour] at hHead
      split at hHead <;> cases hHead
  | [b, d] =>
      simp only [headFour] at hHead
      split at hHead
      · cases hHead
      · split at hHead <;> cases hHead
  | b :: d :: e :: bytes =>
      simp only [headFour] at hHead
      split at hHead
      · cases hHead
      · next hSecond =>
          simp only [Bool.not_eq_true', Bool.not_eq_false,
            isSecond_iff] at hSecond
          split at hHead
          · cases hHead
          · next hThird =>
              simp only [Bool.not_eq_true',
                Bool.not_eq_false,
                isContinuation_iff] at hThird
              split at hHead
              · next hFourth =>
                  rw [isContinuation_iff] at hFourth
                  rcases Head.char.inj hHead with ⟨rfl, -, rfl⟩
                  have hPayload :
                      payload b = b.toNat - 0x80 := rfl
                  have hNext :
                      payload d = d.toNat - 0x80 := rfl
                  have hLast :
                      payload e = e.toNat - 0x80 := rfl
                  have hNumber :=
                    toNat_ofNat
                      (n :=
                        (a.toNat - 0xF0) * 0x40000 +
                          payload b * 0x1000 +
                          payload d * 0x40 + payload e)
                      (by omega)
                  simp only [encodeChar, hNumber]
                  rw [if_neg (by omega), if_neg (by omega),
                    if_neg (by omega),
                    ofNat_eq (b := a) (by omega),
                    continuation_eq hSecond.1 (by omega),
                    continuation_eq hThird (by omega),
                    continuation_eq hFourth (by omega)]
                  rfl
              · cases hHead

/- The character that is read is what the bytes encode. -/
theorem head_eq_char
    {bytes rest : List UInt8}
    {c : Char}
    {width : Nat}
    (hHead : head bytes = .char c width rest) :
    bytes = encodeChar c ++ rest := by
  cases bytes with
  | nil => cases hHead
  | cons a bytes =>
      simp only [head, UInt8.lt_iff_toNat_lt,
        UInt8.reduceToNat] at hHead
      split at hHead
      · next hSmall =>
          rcases Head.char.inj hHead with ⟨rfl, -, rfl⟩
          have hNumber :
              (Char.ofNat a.toNat).toNat = a.toNat :=
            toNat_ofNat (by omega)
          simp only [encodeChar, hNumber, if_pos hSmall]
          rw [UInt8.ofNat_toNat]
          rfl
      · split at hHead
        · cases hHead
        · split at hHead
          · exact headTwo_eq_char (by omega) hHead
          · split at hHead
            · exact headThree_eq_char (by omega) hHead
            · split at hHead
              · exact headFour_eq_char (by omega) hHead
              · cases hHead

/- Only where no bytes are there is nothing to read. -/
theorem eq_nil_of_head
    {bytes : List UInt8}
    (hHead : head bytes = .empty) :
    bytes = [] := by
  cases bytes with
  | nil => rfl
  | cons a bytes =>
      simp only [head] at hHead
      repeat' (first
        | (split at hHead)
        | (simp only [headTwo, headThree, headFour] at hHead))
      all_goals cases hHead

theorem encode_of_decodeFrom
    {offset : Nat}
    {bytes : List UInt8}
    {cs : List Char}
    (hDecode : decodeFrom offset bytes = .ok cs) :
    encode cs = bytes := by
  fun_induction decodeFrom offset bytes generalizing cs with
  | case1 offset bytes hHead =>
      cases hDecode
      rw [eq_nil_of_head hHead]
      rfl
  | case2 => cases hDecode
  | case3 offset bytes c width rest hHead ds hRest ih =>
      cases hDecode
      rw [head_eq_char hHead, ← ih hRest]
      rfl
  | case4 => cases hDecode

/- Exactly what encodes a text is decoded as it. -/
theorem decode_eq_ok_iff
    {bytes : List UInt8}
    {cs : List Char} :
    decode bytes = .ok cs ↔ encode cs = bytes := by
  constructor
  · exact encode_of_decodeFrom
  · rintro rfl
    exact decode_encode cs

/- Different texts have different bytes. -/
theorem encode_injective
    {cs ds : List Char}
    (hSame : encode cs = encode ds) :
    cs = ds := by
  have hDecode := decode_encode cs
  rw [hSame, decode_encode ds] at hDecode
  exact (Except.ok.inj hDecode).symm

/- Well-formed bytes are read without a defect. -/
theorem WellFormed.exists_decode
    {bytes : List UInt8}
    (hBytes : WellFormed bytes) :
    ∃ cs, decode bytes = .ok cs := by
  rcases hBytes with ⟨cs, rfl⟩
  exact ⟨cs, decode_encode cs⟩

end Utf8

end Text

end LocalCert
