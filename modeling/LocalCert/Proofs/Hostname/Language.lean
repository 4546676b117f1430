import LocalCert.Failure
import LocalCert.Proofs.Hostname
import LocalCert.Proofs.Text.Quoted

/-
  The language of hostnames.  A hostname passes exactly if
  it has a fitting length, starts with no dash, and holds
  visible ASCII without the characters that separate fields.
  Any other is refused for the first defect that it has, in
  a message that is printable whatever the hostname holds.

  Main declarations:
    * `Hostname.IsAllowed`
    * `Hostname.InLanguage`
    * `Hostname.FirstDefect`
    * `Hostname.validate_eq_error_iff`
    * `Hostname.isPrintable_message`
    * `Hostname.accepts_exactly_language`
-/

------------------------------------------------------------
-- The Language
------------------------------------------------------------

namespace LocalCert

namespace Hostname

variable {hostname : String}
variable {c : Char}
variable {d : Defect}

/-
  A visible character of ASCII that neither separates fields
  nor escapes or quotes what follows it.
-/
def IsAllowed
    (c : Char) : Prop :=
  0x21 ≤ c.toNat ∧ c.toNat ≤ 0x7E ∧
    c ∉ ['/', ',', '=', '+', '\x5c', '\x22']

/- A hostname for which a certificate can be issued. -/
structure InLanguage
    (hostname : String) : Prop where
  nonempty : 1 ≤ hostname.length
  short : hostname.length ≤ 253
  undashed : hostname.toList.head? ≠ some '-'
  allowed : ∀ c ∈ hostname.toList, IsAllowed c

theorem isAscii_iff :
    isAscii c = true ↔ c.toNat < 128 := by
  simp [isAscii]

/- Behind the controls, ASCII has a single blank. -/
theorem isBlank_iff_of_ascii
    (hSpace : 0x20 ≤ c.toNat)
    (hAscii : c.toNat < 128) :
    Text.isBlank c = true ↔ c.toNat = 0x20 := by
  simp only [Text.isBlank, Text.isWhiteSpace,
    Bool.or_eq_true, Bool.and_eq_true, beq_iff_eq,
    decide_eq_true_eq]
  omega

/- In ASCII, what is not bad is allowed. -/
theorem isBad_eq_false_iff
    (hAscii : c.toNat < 128) :
    isBad c = false ↔ IsAllowed c := by
  have hPrintable := Text.isPrintable_iff_of_ascii hAscii
  have hReserved :
      reserved.contains c = false ↔
        c ∉ ['/', ',', '=', '+', '\x5c', '\x22'] := by
    rw [List.contains_eq_mem, decide_eq_false_iff_not]
    rfl
  simp only [isBad, Bool.or_eq_false_iff,
    Bool.not_eq_false', hPrintable, hReserved, IsAllowed]
  constructor
  · rintro ⟨⟨hBlank, hLow, hHigh⟩, hFree⟩
    rw [← Bool.not_eq_true,
      isBlank_iff_of_ascii hLow hAscii] at hBlank
    exact ⟨by omega, by omega, hFree⟩
  · rintro ⟨hLow, hHigh, hFree⟩
    have hBlank : Text.isBlank c = false := by
      rw [← Bool.not_eq_true,
        isBlank_iff_of_ascii (by omega) hAscii]
      omega
    exact ⟨⟨hBlank, by omega, by omega⟩, hFree⟩

theorem IsAllowed.toNat_lt
    (hAllowed : IsAllowed c) :
    c.toNat < 128 := by
  have hHigh := hAllowed.2.1
  omega

/- The search finds the first character not allowed. -/
theorem find?_isBad_eq_some_iff
    {cs : List Char}
    (hAscii : ∀ b ∈ cs, b.toNat < 128) :
    cs.find? isBad = some c ↔
      ∃ front rest,
        cs = front ++ c :: rest ∧
          (∀ b ∈ front, IsAllowed b) ∧ ¬ IsAllowed c := by
  have hGood :
      ∀ b ∈ cs, isBad b = false ↔ IsAllowed b := by
    intro b hChar
    exact isBad_eq_false_iff (hAscii b hChar)
  rw [List.find?_eq_some_iff_append]
  constructor
  · rintro ⟨hBad, front, rest, rfl, hFree⟩
    refine ⟨front, rest, rfl, ?_, ?_⟩
    · intro b hChar
      apply (hGood b (by simp [hChar])).mp
      simpa using hFree b hChar
    · rw [← hGood c (by simp), hBad]
      exact Bool.noConfusion
  · rintro ⟨front, rest, rfl, hFront, hOther⟩
    refine ⟨?_, front, rest, rfl, ?_⟩
    · rw [← Bool.not_eq_false, hGood c (by simp)]
      exact hOther
    · intro b hChar
      rw [(hGood b (by simp [hChar])).mpr (hFront b hChar)]
      rfl

/- The hostnames without a defect are those allowed. -/
theorem fits_iff_inLanguage :
    Fits hostname ↔ InLanguage hostname := by
  constructor
  · intro hFits
    have hAllowed :
        ∀ c ∈ hostname.toList, IsAllowed c := by
      intro c hChar
      have hAscii := isAscii_iff.mp (hFits.ascii c hChar)
      exact
        (isBad_eq_false_iff hAscii).mp (hFits.good c hChar)
    refine ⟨?_, ?_, hFits.undashed, hAllowed⟩
    · rw [← String.length_toList]
      exact List.length_pos_iff.mpr hFits.nonempty
    · rw [← String.length_toList]
      exact hFits.short
  · intro hIn
    have hGood :
        ∀ c ∈ hostname.toList, isBad c = false := by
      intro c hChar
      have hAllowed := hIn.allowed c hChar
      exact
        (isBad_eq_false_iff hAllowed.toNat_lt).mpr hAllowed
    refine ⟨?_, hIn.undashed, ?_, ?_, hGood⟩
    · apply List.ne_nil_of_length_pos
      rw [String.length_toList]
      exact hIn.nonempty
    · intro c hChar
      exact isAscii_iff.mpr (hIn.allowed c hChar).toNat_lt
    · rw [String.length_toList]
      exact hIn.short

------------------------------------------------------------
-- Defects
------------------------------------------------------------

/-
  The first defect of a hostname: each is its defect only if
  those before it are not, and a bad character only if all
  characters in front of it are allowed.
-/
inductive FirstDefect
    (hostname : String) : Defect → Prop where
  | empty
      (hEmpty : hostname = "") :
      FirstDefect hostname .empty
  | leadingDash
      {rest : List Char}
      (hText : hostname.toList = '-' :: rest) :
      FirstDefect hostname (.leadingDash hostname)
  | notAscii
      {c : Char}
      (hDash : hostname.toList.head? ≠ some '-')
      (hChar : c ∈ hostname.toList)
      (hCode : 128 ≤ c.toNat) :
      FirstDefect hostname (.notAscii hostname)
  | tooLong
      (hDash : hostname.toList.head? ≠ some '-')
      (hAscii : ∀ c ∈ hostname.toList, c.toNat < 128)
      (hLong : 253 < hostname.length) :
      FirstDefect hostname .tooLong
  | badCharacter
      {front rest : List Char}
      {c : Char}
      (hDash : hostname.toList.head? ≠ some '-')
      (hAscii : ∀ c ∈ hostname.toList, c.toNat < 128)
      (hShort : hostname.length ≤ 253)
      (hText : hostname.toList = front ++ c :: rest)
      (hFront : ∀ d ∈ front, IsAllowed d)
      (hBad : ¬ IsAllowed c) :
      FirstDefect hostname (.badCharacter c hostname)

/- A hostname is refused for its first defect. -/
theorem FirstDefect.validate_eq
    (hFirst : FirstDefect hostname d) :
    validate hostname = .error d := by
  have hAll :
      (∀ c ∈ hostname.toList, c.toNat < 128) →
        hostname.toList.all isAscii = true := by
    intro hAscii
    rw [List.all_eq_true]
    intro c hChar
    exact isAscii_iff.mpr (hAscii c hChar)
  cases hFirst with
  | empty hEmpty =>
      subst hEmpty
      rfl
  | leadingDash hText =>
      simp [validate, hText]
  | @notAscii c hDash hChar hCode =>
      have hSome := List.ne_nil_of_mem hChar
      have hNotAll :
          hostname.toList.all isAscii = false := by
        rw [List.all_eq_false]
        refine ⟨c, hChar, ?_⟩
        rw [isAscii_iff]
        exact Nat.not_lt.mpr hCode
      simp [validate, hSome, hDash, hNotAll]
  | tooLong hDash hAscii hLong =>
      rw [← String.length_toList] at hLong
      have hSome : hostname.toList ≠ [] :=
        List.ne_nil_of_length_pos (by omega)
      simp [validate, hSome, hDash, hAll hAscii, maxLength,
        hLong]
  | badCharacter hDash hAscii hShort hText hFront hBad =>
      have hFind :=
        (find?_isBad_eq_some_iff hAscii).mpr
          ⟨_, _, hText, hFront, hBad⟩
      have hSome : hostname.toList ≠ [] := by
        simp [hText]
      rw [← String.length_toList] at hShort
      simp [validate, hSome, hDash, hAll hAscii, maxLength,
        Nat.not_lt.mpr hShort, hFind]

/- A hostname that does not pass has a first defect. -/
theorem exists_firstDefect
    (hOther : ¬ InLanguage hostname) :
    ∃ d, FirstDefect hostname d := by
  by_cases hEmpty : hostname = ""
  · exact ⟨_, .empty hEmpty⟩
  by_cases hDash : hostname.toList.head? = some '-'
  · rcases List.head?_eq_some_iff.mp hDash with
      ⟨rest, hText⟩
    exact ⟨_, .leadingDash hText⟩
  by_cases hAscii : ∀ c ∈ hostname.toList, c.toNat < 128
  · by_cases hShort : hostname.length ≤ 253
    · cases hFind : hostname.toList.find? isBad with
      | none =>
          have hGood :
              ∀ c ∈ hostname.toList, isBad c = false := by
            simpa using hFind
          apply absurd _ hOther
          refine ⟨?_, hShort, hDash, ?_⟩
          · rw [← String.length_toList]
            apply List.length_pos_iff.mpr
            simpa using hEmpty
          · intro c hChar
            have hCode := hAscii c hChar
            exact
              (isBad_eq_false_iff hCode).mp (hGood c hChar)
      | some c =>
          rcases (find?_isBad_eq_some_iff hAscii).mp hFind
            with ⟨front, rest, hText, hFront, hBad⟩
          exact
            ⟨_, .badCharacter hDash hAscii hShort hText
              hFront hBad⟩
    · exact ⟨_, .tooLong hDash hAscii (by omega)⟩
  · simp only [Classical.not_forall, Nat.not_lt] at hAscii
    rcases hAscii with ⟨c, hChar, hCode⟩
    exact ⟨_, .notAscii hDash hChar hCode⟩

theorem validate_eq_error_iff :
    validate hostname = .error d ↔
      FirstDefect hostname d := by
  constructor
  · intro hError
    have hOther : ¬ InLanguage hostname := by
      intro hIn
      have hValid :=
        validate_eq_ok_iff.mpr (fits_iff_inLanguage.mpr hIn)
      rw [hValid] at hError
      cases hError
    rcases exists_firstDefect hOther with ⟨first, hFirst⟩
    have hSame := hFirst.validate_eq
    rw [hError] at hSame
    cases hSame
    exact hFirst
  · intro hFirst
    exact hFirst.validate_eq

------------------------------------------------------------
-- Messages
------------------------------------------------------------

/- A message is printable, whatever the hostname holds. -/
theorem isPrintable_message
    (d : Defect) :
    ∀ c ∈ d.message.toList, Text.isPrintable c = true := by
  cases d with
  | empty => exact Text.forall_mem_of_all (by decide)
  | leadingDash hostname =>
      apply Text.isPrintable_append_quoted
      exact Text.forall_mem_of_all (by decide)
  | notAscii hostname =>
      apply Text.isPrintable_append_quoted
      exact Text.forall_mem_of_all (by decide)
  | tooLong => exact Text.forall_mem_of_all (by decide)
  | badCharacter c hostname =>
      apply Text.isPrintable_append_quoted
      rw [String.toList_append, List.forall_mem_append]
      constructor
      · apply Text.isPrintable_append_quoted
        exact Text.forall_mem_of_all (by decide)
      · exact Text.forall_mem_of_all (by decide)

------------------------------------------------------------
-- Validation
------------------------------------------------------------

/-
  Exactly the hostnames of the language pass, and they are
  given back as they are.  Any other is refused with a bad
  value that tells its first defect; a bad character is the
  first one that is not allowed, and is quoted.  No message
  holds a control character or a line break.
-/
theorem accepts_exactly_language
    (hostname : String) :
    (validate hostname = .ok hostname ↔
        InLanguage hostname) ∧
      (¬ InLanguage hostname →
        ∃ d, validate hostname = .error d) ∧
      ∀ d,
        (validate hostname = .error d ↔
            FirstDefect hostname d) ∧
          (Failure.hostname d).kind = .value ∧
          (∀ c,
            d = .badCharacter c hostname →
              (Failure.hostname d).message =
                "hostname contains invalid character " ++
                  Text.quoted (String.singleton c) ++ ": " ++
                  Text.quoted hostname) ∧
          ∀ c ∈ (Failure.hostname d).message.toList,
            Text.isPrintable c = true ∧
              ¬ Text.IsControl c := by
  refine ⟨validate_eq_ok_iff.trans fits_iff_inLanguage, ?_,
    ?_⟩
  · intro hOther
    rcases exists_firstDefect hOther with ⟨d, hFirst⟩
    exact ⟨d, hFirst.validate_eq⟩
  · intro d
    refine ⟨validate_eq_error_iff, rfl, ?_, ?_⟩
    · rintro c rfl
      rfl
    · intro c hChar
      have hPrintable := isPrintable_message d c hChar
      exact ⟨hPrintable, Text.not_isControl hPrintable⟩

/- The line break is blamed, and written with its escape. -/
example :
    validate "a\nb/c" =
        .error (.badCharacter '\n' "a\nb/c") ∧
      (Defect.badCharacter '\n' "a\nb/c").message =
        "hostname contains invalid character " ++
          "'\\n': 'a\\nb/c'" := by
  constructor
  · rfl
  · decide

end Hostname

end LocalCert
