import LocalCert.Hostname

/-
  Hostnames that pass: what each of them is like, and that
  there are no others.

  Main declarations:
    * `Hostname.Fits`
    * `Hostname.validate_eq_ok_iff`
    * `Hostname.Fits.not_mem`
-/

------------------------------------------------------------
-- What Passes
------------------------------------------------------------

namespace LocalCert

namespace Hostname

/- A hostname without a defect. -/
structure Fits
    (hostname : String) : Prop where
  nonempty : hostname.toList ≠ []
  undashed : hostname.toList.head? ≠ some '-'
  ascii : ∀ c ∈ hostname.toList, isAscii c = true
  short : hostname.toList.length ≤ maxLength
  good : ∀ c ∈ hostname.toList, isBad c = false

variable {hostname : String}

/- Exactly the hostnames without a defect pass. -/
theorem validate_eq_ok_iff :
    validate hostname = .ok hostname ↔ Fits hostname := by
  constructor
  · intro hValid
    simp only [validate] at hValid
    split at hValid
    · cases hValid
    · next hSome =>
        split at hValid
        · cases hValid
        · next hDash =>
            split at hValid
            · cases hValid
            · next hAscii =>
                split at hValid
                · cases hValid
                · next hShort =>
                    split at hValid
                    · cases hValid
                    · next hFind =>
                        exact
                          { nonempty := by
                              simpa using hSome
                            undashed := by
                              simpa using hDash
                            ascii := by
                              simpa using hAscii
                            short := Nat.le_of_not_lt hShort
                            good := by
                              simpa using hFind }
  · intro hFits
    have hSome : hostname.toList.isEmpty = false := by
      simpa using hFits.nonempty
    have hDash :
        (hostname.toList.head? == some '-') = false := by
      simpa using hFits.undashed
    have hAscii : hostname.toList.all isAscii = true := by
      simpa using hFits.ascii
    have hShort := Nat.not_lt.mpr hFits.short
    have hFind : hostname.toList.find? isBad = none := by
      simpa using hFits.good
    simp [validate, hSome, hDash, hAscii, hShort, hFind]

/- A bad character is in no hostname that passes. -/
theorem Fits.not_mem
    {c : Char}
    (hFits : Fits hostname)
    (hBad : isBad c = true) :
    c ∉ hostname.toList := by
  intro hChar
  rw [hFits.good c hChar] at hBad
  cases hBad

/- No character of a hostname that passes is blank. -/
theorem Fits.isBlank_eq_false
    (hFits : Fits hostname) :
    ∀ c ∈ hostname.toList, Text.isBlank c = false := by
  intro c hChar
  have hGood := hFits.good c hChar
  simp only [isBad, Bool.or_eq_false_iff] at hGood
  exact hGood.1.1

end Hostname

end LocalCert
