import LocalCert.Proofs.Text.Decoding
import LocalCert.Text.Newline

/-
  What reading with one kind of line end does to a text and
  to its bytes.  It leaves exactly those alone that have no
  carriage return.

  Main declarations:
    * `Text.not_mem_unifyNewlines`
    * `Text.unifyNewlines_eq_self_iff`
    * `Text.Utf8.unifyBytes`
    * `Text.Utf8.encode_unifyNewlines`
-/

------------------------------------------------------------
-- Texts
------------------------------------------------------------

namespace LocalCert

namespace Text

variable {c : Char}
variable {cs : List Char}

theorem unifyNewlines_cons
    (hOther : c ≠ '\r') :
    unifyNewlines (c :: cs) = c :: unifyNewlines cs := by
  simp [unifyNewlines, hOther]

/- No carriage return is left. -/
theorem not_mem_unifyNewlines
    (cs : List Char) :
    '\r' ∉ unifyNewlines cs := by
  fun_induction unifyNewlines cs with
  | case1 => simp
  | case2 cs ih => simpa using ih
  | case3 cs _ ih => simpa using ih
  | case4 c cs _ hOther ih =>
      rw [List.mem_cons, not_or]
      exact ⟨fun hSame => hOther hSame.symm, ih⟩

theorem unifyNewlines_of_not_mem
    (hNone : '\r' ∉ cs) :
    unifyNewlines cs = cs := by
  induction cs with
  | nil => rfl
  | cons c cs ih =>
      rw [List.mem_cons, not_or] at hNone
      rw [unifyNewlines_cons (Ne.symm hNone.1),
        ih hNone.2]

/- A text is read as it is if it has no carriage return. -/
theorem unifyNewlines_eq_self_iff :
    unifyNewlines cs = cs ↔ '\r' ∉ cs := by
  constructor
  · intro hSame
    rw [← hSame]
    exact not_mem_unifyNewlines cs
  · exact unifyNewlines_of_not_mem

------------------------------------------------------------
-- Bytes
------------------------------------------------------------

namespace Utf8

/- The byte of a carriage return. -/
def returnByte : UInt8 := 0x0D

/- The byte of a line feed. -/
def feedByte : UInt8 := 0x0A

/-
  Write every line end of some bytes as a line feed: drop a
  return before a feed, and make a feed of any other one.
-/
def unifyBytes : List UInt8 → List UInt8
  | [] => []
  | b :: bs =>
      if b = returnByte ∧ bs.head? = some feedByte then
        unifyBytes bs
      else if b = returnByte then
        feedByte :: unifyBytes bs
      else
        b :: unifyBytes bs

variable {b : UInt8}
variable {bytes rest : List UInt8}

theorem unifyBytes_cons
    (hOther : b ≠ returnByte) :
    unifyBytes (b :: rest) = b :: unifyBytes rest := by
  rw [unifyBytes, if_neg (fun hBoth => hOther hBoth.1),
    if_neg hOther]

theorem unifyBytes_append
    (hNone : returnByte ∉ bytes) :
    unifyBytes (bytes ++ rest) =
      bytes ++ unifyBytes rest := by
  induction bytes with
  | nil => rfl
  | cons b bytes ih =>
      rw [List.mem_cons, not_or] at hNone
      rw [List.cons_append,
        unifyBytes_cons (Ne.symm hNone.1), ih hNone.2,
        List.cons_append]

/- A return with a feed behind it is one line end. -/
theorem unifyBytes_return_feed :
    unifyBytes (returnByte :: feedByte :: rest) =
      feedByte :: unifyBytes rest := by
  rw [unifyBytes, if_pos ⟨rfl, rfl⟩,
    unifyBytes_cons (by decide)]

/- A return without one is a line end by itself. -/
theorem unifyBytes_return
    (hOther : rest.head? ≠ some feedByte) :
    unifyBytes (returnByte :: rest) =
      feedByte :: unifyBytes rest := by
  rw [unifyBytes, if_neg (fun hBoth => hOther hBoth.2),
    if_pos rfl]

/- No carriage return is left. -/
theorem returnByte_not_mem_unifyBytes
    (bytes : List UInt8) :
    returnByte ∉ unifyBytes bytes := by
  induction bytes with
  | nil => simp [unifyBytes]
  | cons b bytes ih =>
      rw [unifyBytes]
      split
      · exact ih
      · split
        · exact List.not_mem_cons_of_ne_of_not_mem
            (by decide) ih
        · next hOther =>
            exact List.not_mem_cons_of_ne_of_not_mem
              (Ne.symm hOther) ih

/- Bytes are kept if there is no carriage return in them. -/
theorem unifyBytes_eq_self_iff :
    unifyBytes bytes = bytes ↔ returnByte ∉ bytes := by
  constructor
  · intro hSame
    rw [← hSame]
    exact returnByte_not_mem_unifyBytes bytes
  · intro hNone
    have hAll : unifyBytes (bytes ++ []) = bytes ++ [] :=
      unifyBytes_append hNone
    simpa using hAll

/- A character is one byte below 80, or bytes above it. -/
theorem encodeChar_cases
    (c : Char) :
    c.toNat < 0x80 ∧ encodeChar c = [UInt8.ofNat c.toNat] ∨
      ∀ b ∈ encodeChar c, 0x80 ≤ b.toNat := by
  have hLast := toNat_lt c
  have hFirst :
      ∀ n, 0x80 ≤ n → n < 256 →
        0x80 ≤ (UInt8.ofNat n).toNat := by
    intro n hLarge hByte
    rwa [toNat_ofNat_of_lt hByte]
  have hNext : ∀ n, 0x80 ≤ (continuation n).toNat := by
    intro n
    rw [toNat_continuation]
    omega
  unfold encodeChar
  simp only
  split
  · exact .inl ⟨‹_›, rfl⟩
  · right
    split
    · simpa only [List.forall_mem_cons, hNext, true_and,
        List.not_mem_nil, false_imp_iff, implies_true,
        and_true] using hFirst _ (by omega) (by omega)
    · split
      · simpa only [List.forall_mem_cons, hNext, true_and,
          List.not_mem_nil, false_imp_iff, implies_true,
          and_true] using hFirst _ (by omega) (by omega)
      · simpa only [List.forall_mem_cons, hNext, true_and,
          List.not_mem_nil, false_imp_iff, implies_true,
          and_true] using hFirst _ (by omega) (by omega)

/- A byte below 80 is the character with its number. -/
theorem toNat_eq_of_mem_encodeChar
    {c : Char}
    (hByte : b ∈ encodeChar c)
    (hLow : b.toNat < 0x80) :
    c.toNat = b.toNat := by
  rcases encodeChar_cases c with ⟨hSmall, hOne⟩ | hLarge
  · rw [hOne, List.mem_singleton] at hByte
    rw [hByte, toNat_ofNat_of_lt (by omega)]
  · have hHigh := hLarge b hByte
    omega

theorem returnByte_not_mem
    {c : Char}
    (hOther : c ≠ '\r') :
    returnByte ∉ encodeChar c := by
  intro hByte
  have hSame := toNat_eq_of_mem_encodeChar hByte (by decide)
  exact hOther (Char.toNat_inj.mp hSame)

theorem encodeChar_ne_nil
    (c : Char) :
    encodeChar c ≠ [] := by
  intro hNone
  have hHead := head_encodeChar c []
  rw [hNone] at hHead
  cases hHead

/- What starts with no feed is not written with one. -/
theorem head?_encode_ne
    {cs : List Char}
    (hOther : cs.head? ≠ some '\n') :
    (encode cs).head? ≠ some feedByte := by
  cases cs with
  | nil => simp [encode]
  | cons c cs =>
      intro hFeed
      have hByte : feedByte ∈ encodeChar c := by
        rcases List.exists_cons_of_ne_nil
            (encodeChar_ne_nil c) with ⟨b, bs, hBytes⟩
        rw [encode, List.flatMap_cons, hBytes] at hFeed
        rw [hBytes]
        exact List.mem_of_head? hFeed
      have hSame :=
        toNat_eq_of_mem_encodeChar hByte (by decide)
      have hChar : c = '\n' := Char.toNat_inj.mp hSame
      exact hOther (by rw [hChar]; rfl)

/- The bytes of a text that is read, by those of the file. -/
theorem encode_unifyNewlines
    (cs : List Char) :
    encode (unifyNewlines cs) = unifyBytes (encode cs) := by
  fun_induction unifyNewlines cs with
  | case1 => rfl
  | case2 cs ih =>
      have hBytes :
          encode ('\r' :: '\n' :: cs) =
            returnByte :: feedByte :: encode cs := rfl
      rw [hBytes, unifyBytes_return_feed, ← ih]
      rfl
  | case3 cs hNext ih =>
      have hBytes :
          encode ('\r' :: cs) = returnByte :: encode cs := rfl
      have hOther : (encode cs).head? ≠ some feedByte := by
        refine head?_encode_ne ?_
        intro hFeed
        rcases List.head?_eq_some_iff.mp hFeed with
          ⟨rest, rfl⟩
        exact hNext rest rfl
      rw [hBytes, unifyBytes_return hOther, ← ih]
      rfl
  | case4 c cs _ hOther ih =>
      have hBytes :
          encode (c :: cs) = encodeChar c ++ encode cs := rfl
      rw [hBytes, unifyBytes_append (returnByte_not_mem hOther),
        ← ih]
      rfl

end Utf8

end Text

end LocalCert
