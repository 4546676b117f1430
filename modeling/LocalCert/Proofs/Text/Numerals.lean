import LocalCert.Text.Digit
import Mathlib.Data.List.Induction

/-
  Numbers and their digits.  Decimal digits without a
  leading zero are the only ones of their number, and digits
  in base sixteen read back as the number.

  Main declarations:
    * `Text.decimalDigits_ofDecimalDigits`
    * `Text.exists_values_toDigits`
    * `Text.mapM_hexValue_toDigits`
-/

------------------------------------------------------------
-- Decimal Digits
------------------------------------------------------------

namespace LocalCert

namespace Text

variable {c : Char}
variable {ds : List Char}

theorem isDigit_iff :
    isDigit c = true ↔ '0' ≤ c ∧ c ≤ '9' := by
  simp only [isDigit, Bool.and_eq_true, decide_eq_true_eq]
  rfl

/- A digit is the one of its value. -/
theorem digitChar_of_isDigit
    (hDigit : isDigit c = true) :
    c.toNat - 48 < 10 ∧
      Nat.digitChar (c.toNat - 48) = c := by
  simp only [isDigit, Bool.and_eq_true,
    decide_eq_true_eq] at hDigit
  have hSmall : c.toNat - 48 < 10 := by omega
  refine ⟨hSmall, ?_⟩
  apply Char.toNat_inj.mp
  rw [Nat.toNat_digitChar_of_lt_ten hSmall]
  omega

theorem ofDecimalDigits_concat
    (ds : List Char)
    (c : Char) :
    ofDecimalDigits (ds ++ [c]) =
      10 * ofDecimalDigits ds + (c.toNat - 48) := by
  simp [ofDecimalDigits]

/-
  A number without a leading zero is written in one way.
  The induction takes the digits from the back, as the
  number is written.
-/
theorem decimalDigits_ofDecimalDigits
    (hSome : ds ≠ [])
    (hDigits : ∀ d ∈ ds, isDigit d = true)
    (hZero : ds.head? = some '0' → ds = ['0']) :
    decimalDigits (ofDecimalDigits ds) = ds ∧
      (ds ≠ ['0'] → 0 < ofDecimalDigits ds) := by
  induction ds using List.reverseRecOn with
  | nil => exact absurd rfl hSome
  | append_singleton front d ih =>
      rcases digitChar_of_isDigit (hDigits d (by simp)) with
        ⟨hSmall, hChar⟩
      rw [ofDecimalDigits_concat]
      by_cases hFront : front = []
      · subst hFront
        have hValue :
            10 * ofDecimalDigits [] + (d.toNat - 48) =
              d.toNat - 48 := by
          simp [ofDecimalDigits]
        rw [hValue]
        constructor
        · rw [decimalDigits, Nat.toDigits_of_lt_base hSmall,
            hChar]
          rfl
        · intro hNotZero
          apply Nat.pos_of_ne_zero
          intro hNone
          rw [hNone] at hChar
          exact hNotZero (congrArg (fun c => [c]) hChar.symm)
      · have hOther : front ≠ ['0'] := by
          rintro rfl
          cases hZero rfl
        have hFirst : front.head? ≠ some '0' := by
          intro hHead
          have hAll := hZero
            (by rw [List.head?_append, hHead]; rfl)
          have hLength := congrArg List.length hAll
          simp only [List.length_append,
            List.length_singleton] at hLength
          exact hFront
            (List.eq_nil_of_length_eq_zero (by omega))
        rcases ih hFront
            (fun e he => hDigits e (by simp [he]))
            (fun hHead => (hFirst hHead).elim) with
          ⟨hDigitsOf, hPositive⟩
        have hLarge := hPositive hOther
        constructor
        · rw [decimalDigits,
            ← Nat.toDigits_append_toDigits (by decide) hLarge
              hSmall,
            Nat.toDigits_of_lt_base hSmall, hChar]
          rw [decimalDigits] at hDigitsOf
          rw [hDigitsOf]
        · intro _
          omega

------------------------------------------------------------
-- Digits In Base Sixteen
------------------------------------------------------------

theorem hexValue_digitChar :
    ∀ n < 16, hexValue (Nat.digitChar n) = some n := by
  decide

/- What is no digit in base sixteen is none in base ten. -/
theorem isDigit_eq_false
    (hOther : hexValue c = none) :
    isDigit c = false := by
  by_contra hDigit
  simp only [isDigit, Bool.not_eq_false] at hDigit
  simp [hexValue, hDigit] at hOther

/-
  The digits of a number stand for values that make it up,
  and none but zero starts with a zero.  The induction takes
  the digits from the back, as the number is written.
-/
theorem exists_values_toDigits
    (n : Nat) :
    ∃ vs : List Nat,
      Nat.toDigits 16 n = vs.map Nat.digitChar ∧
        (∀ v ∈ vs, v < 16) ∧
        vs.foldl (fun n v => 16 * n + v) 0 = n ∧
        (vs.head? = some 0 → n = 0) := by
  induction n using Nat.strongRecOn with
  | ind n ih =>
      by_cases hDigit : n < 16
      · refine ⟨[n], ?_, by simpa using hDigit, by simp,
          by simp⟩
        rw [Nat.toDigits_of_lt_base hDigit]
        rfl
      · rcases ih (n / 16) (by omega) with
          ⟨vs, hFront, hSmall, hValue, hZero⟩
        have hSome : vs ≠ [] := by
          rintro rfl
          rw [List.foldl_nil] at hValue
          omega
        refine ⟨vs ++ [n % 16], ?_, ?_, ?_, ?_⟩
        · rw [Nat.toDigits_of_base_le (by decide)
            (Nat.not_lt.mp hDigit), hFront, List.map_append]
          rfl
        · rw [List.forall_mem_append,
            List.forall_mem_singleton]
          exact ⟨hSmall, Nat.mod_lt n (by decide)⟩
        · simp only [List.foldl_append, hValue,
            List.foldl_cons, List.foldl_nil]
          omega
        · intro hHead
          have hFirst : vs.head? = some 0 := by
            cases vs with
            | nil => exact absurd rfl hSome
            | cons v vs => simpa using hHead
          have hNone := hZero hFirst
          omega

/- What is written for values is read as the values. -/
theorem mapM_hexValue_map
    {digit : Nat → Char}
    {vs : List Nat}
    (hDigit : ∀ v < 16, hexValue (digit v) = some v)
    (hSmall : ∀ v ∈ vs, v < 16) :
    (vs.map digit).mapM hexValue = some vs := by
  induction vs with
  | nil => rfl
  | cons v vs ih =>
      rw [List.forall_mem_cons] at hSmall
      simp [hDigit v hSmall.1, ih hSmall.2]

/- The values of the digits of a number make it up. -/
theorem mapM_hexValue_toDigits
    (n : Nat) :
    ∃ vs,
      (Nat.toDigits 16 n).mapM hexValue = some vs ∧
        vs.foldl (fun n v => 16 * n + v) 0 = n := by
  rcases exists_values_toDigits n with
    ⟨vs, hDigits, hSmall, hValue, _⟩
  refine ⟨vs, ?_, hValue⟩
  rw [hDigits]
  exact mapM_hexValue_map hexValue_digitChar hSmall

end Text

end LocalCert
