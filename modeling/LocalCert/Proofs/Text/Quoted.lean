import LocalCert.Proofs.Text.Pieces
import LocalCert.Text.Quoted

/-
  Quoted text is printable.  What is not printable in a text
  is written by its code point, so a message that quotes the
  text holds no control character and no line break of it.

  Main declarations:
    * `Text.isPrintable_iff_of_ascii`
    * `Text.IsControl`
    * `Text.not_isControl`
    * `Text.isPrintable_quoted`
-/

------------------------------------------------------------
-- Printable Characters
------------------------------------------------------------

namespace LocalCert

namespace Text

variable {c quote : Char}

/- What lies in a range of the table is not printable. -/
theorem isPrintable_eq_false
    {first last : Nat}
    (hRange : (first, last) ∈ unprintableRanges)
    (hAbove : 127 ≤ c.toNat)
    (hFirst : first ≤ c.toNat)
    (hLast : c.toNat ≤ last) :
    isPrintable c = false := by
  have hAny :
      unprintableRanges.any (fun r =>
        r.1 ≤ c.toNat && c.toNat ≤ r.2) = true :=
    List.any_eq_true.mpr
      ⟨(first, last), hRange, by simp [hFirst, hLast]⟩
  simp [isPrintable, Nat.not_lt.mpr hAbove, hAny]

/- The delete and the controls behind it. -/
theorem isPrintable_eq_false_of_upper
    (hDelete : 127 ≤ c.toNat)
    (hUpper : c.toNat ≤ 160) :
    isPrintable c = false :=
  isPrintable_eq_false List.mem_cons_self hDelete hDelete
    hUpper

/- Printable in ASCII is what stands before the delete. -/
theorem isPrintable_iff_of_ascii
    (hAscii : c.toNat < 128) :
    isPrintable c = true ↔ 32 ≤ c.toNat ∧ c.toNat < 127 := by
  by_cases hDelete : c.toNat < 127
  · simp [isPrintable, hDelete]
  · have hNone : isPrintable c = false :=
      isPrintable_eq_false_of_upper (by omega) (by omega)
    simp [hNone, hDelete]

/-
  The controls of both halves of Latin 1, and the separators
  of lines and of paragraphs.
-/
def IsControl
    (c : Char) : Prop :=
  c.toNat < 32 ∨ (127 ≤ c.toNat ∧ c.toNat < 160) ∨
    c.toNat = 0x2028 ∨ c.toNat = 0x2029

/- No printable character is a control. -/
theorem not_isControl
    (hPrintable : isPrintable c = true) :
    ¬ IsControl c := by
  have hSeparators : (8232, 8239) ∈ unprintableRanges := by
    decide +kernel
  intro hControl
  rcases hControl with hLow | ⟨hDelete, hUpper⟩ | hBreak
  · have hSpace :=
      (isPrintable_iff_of_ascii (by omega)).mp hPrintable
    omega
  · have hNone : isPrintable c = false :=
      isPrintable_eq_false_of_upper hDelete (by omega)
    rw [hNone] at hPrintable
    cases hPrintable
  · have hNone : isPrintable c = false :=
      isPrintable_eq_false hSeparators (by omega) (by omega)
        (by omega)
    rw [hNone] at hPrintable
    cases hPrintable

------------------------------------------------------------
-- Escapes
------------------------------------------------------------

theorem isPrintable_hexDigit
    (n : Nat)
    (hDigit : n < 16) :
    isPrintable (hexDigit n) = true := by
  revert n
  decide

theorem isPrintable_hexDigits
    (width n : Nat) :
    ∀ c ∈ hexDigits width n, isPrintable c = true := by
  induction width generalizing n with
  | zero => simp [hexDigits]
  | succ width ih =>
      rw [hexDigits, List.forall_mem_append,
        List.forall_mem_singleton]
      have hDigit : n % 16 < 16 := Nat.mod_lt n (by decide)
      exact ⟨ih (n / 16), isPrintable_hexDigit _ hDigit⟩

namespace Quoted

/- A code point is written in letters and digits. -/
theorem isPrintable_codePoint
    (c : Char) :
    ∀ d ∈ codePoint c, isPrintable d = true := by
  have hDigits := isPrintable_hexDigits
  unfold codePoint
  dsimp only
  split
  · simp only [List.forall_mem_cons]
    exact ⟨by decide, by decide, hDigits 2 _⟩
  · split
    · simp only [List.forall_mem_cons]
      exact ⟨by decide, by decide, hDigits 4 _⟩
    · simp only [List.forall_mem_cons]
      exact ⟨by decide, by decide, hDigits 8 _⟩

/- What a character is written as between the quotes. -/
theorem isPrintable_escape
    (hQuote : isPrintable quote = true)
    (c : Char) :
    ∀ d ∈ escape quote c, isPrintable d = true := by
  have hBackslash : isPrintable backslash = true := by decide
  unfold escape
  split
  · next hMark =>
      have hSelf : isPrintable c = true := by
        rw [Bool.or_eq_true, beq_iff_eq, beq_iff_eq] at hMark
        rcases hMark with rfl | rfl
        · exact hQuote
        · exact hBackslash
      simp [hBackslash, hSelf]
  · split
    · exact forall_mem_of_all (by decide)
    · split
      · exact forall_mem_of_all (by decide)
      · split
        · exact forall_mem_of_all (by decide)
        · split
          · next hSelf => simpa using hSelf
          · exact isPrintable_codePoint c

theorem isPrintable_delimiter
    (cs : List Char) :
    isPrintable (delimiter cs) = true := by
  unfold delimiter
  split
  · decide
  · decide

end Quoted

/- Quoted text is printable, whatever the text holds. -/
theorem isPrintable_quoted
    (s : String) :
    ∀ c ∈ (quoted s).toList, isPrintable c = true := by
  have hQuote := Quoted.isPrintable_delimiter s.toList
  rw [quoted, String.toList_ofList, Quoted.encode,
    List.forall_mem_cons, List.forall_mem_append,
    List.forall_mem_singleton]
  refine ⟨hQuote, ?_, hQuote⟩
  intro c hChar
  rcases List.mem_flatMap.mp hChar with ⟨d, _, hEscape⟩
  exact Quoted.isPrintable_escape hQuote d c hEscape

/- So are printable words with a quoted text behind them. -/
theorem isPrintable_append_quoted
    {words : String}
    (hWords : ∀ c ∈ words.toList, isPrintable c = true)
    (s : String) :
    ∀ c ∈ (words ++ quoted s).toList,
      isPrintable c = true := by
  rw [String.toList_append, List.forall_mem_append]
  exact ⟨hWords, isPrintable_quoted s⟩

end Text

end LocalCert
