import LocalCert.Proofs.Net.Groups

/-
  Address literals.  A text that holds no slash is read as
  an address, of either version and with or without a zone,
  exactly if the grammar of literals has it.

  Main declarations:
    * `Net.IsSix.not_mem`
    * `Net.Address.isSome_sixOfChars?_iff`
    * `Net.Address.isSome_ofText?_iff`
-/

------------------------------------------------------------
-- Characters Of Groups
------------------------------------------------------------

namespace LocalCert

namespace Net

variable {c : Char}
variable {cs : List Char}

/-
  Groups are made of hexadecimal digits and colons, and of
  dots if their end is dotted.
-/
theorem Groups.not_mem
    {dottedEnd : Bool}
    {n : Nat}
    (hGroups : Groups dottedEnd n cs)
    (hHex : Text.hexValue c = none)
    (hColon : c ≠ ':')
    (hDot : c ≠ '.') :
    c ∉ cs := by
  induction hGroups with
  | one hGroup => exact hGroup.not_mem hHex
  | two _ hFour =>
      exact hFour.not_mem (Text.isDigit_eq_false hHex) hDot
  | more hGroup _ ih =>
      simp [hGroup.not_mem hHex, hColon, ih]

theorem Side.not_mem
    {dottedEnd : Bool}
    {n : Nat}
    (hSide : Side dottedEnd n cs)
    (hHex : Text.hexValue c = none)
    (hColon : c ≠ ':')
    (hDot : c ≠ '.') :
    c ∉ cs := by
  rcases hSide with ⟨_, rfl⟩ | hGroups
  · exact List.not_mem_nil
  · exact hGroups.not_mem hHex hColon hDot

theorem IsSix.not_mem
    (hSix : IsSix cs)
    (hHex : Text.hexValue c = none)
    (hColon : c ≠ ':')
    (hDot : c ≠ '.') :
    c ∉ cs := by
  rcases hSix with
    hGroups | ⟨m, n, high, low, hHigh, hLow, _, rfl⟩
  · exact hGroups.not_mem hHex hColon hDot
  · simp [hHigh.not_mem hHex hColon hDot,
      hLow.not_mem hHex hColon hDot, hColon]

/- Before the zone there is no percent sign. -/
theorem IsSix.percent_not_mem
    (hSix : IsSix cs) :
    '%' ∉ cs :=
  hSix.not_mem (by decide) (by decide) (by decide)

------------------------------------------------------------
-- Literals
------------------------------------------------------------

namespace Address

theorem isZone_iff
    {zone : List Char} :
    IsZone zone ↔
      (zone.isEmpty || zone.contains '%') = false := by
  simp [IsZone]

/- Eight groups are read with their zone, if there is one. -/
theorem isSome_sixOfChars?_iff
    (hSlash : '/' ∉ cs) :
    (sixOfChars? cs).isSome = true ↔
      IsSix cs ∨
        ∃ address zone,
          IsSix address ∧ IsZone zone ∧
            cs = address ++ '%' :: zone := by
  have hNoSlash : cs.contains '/' = false := by
    simpa using hSlash
  by_cases hPercent : '%' ∈ cs
  · have hNotSix : ¬ IsSix cs :=
      fun hSix => hSix.percent_not_mem hPercent
    rcases List.eq_append_cons_of_mem hPercent with
      ⟨address, zone, hText, hAddress⟩
    have hParts :
        Text.splitFirst? '%' cs = some (address, zone) :=
      Text.splitFirst?_eq_some_iff.mpr ⟨hText, hAddress⟩
    have hRead :
        (sixOfChars? cs).isSome = true ↔
          IsSix address ∧ IsZone zone := by
      rw [isZone_iff, ← Ipv6.isSome_ofChars?_iff]
      simp only [sixOfChars?, hNoSlash, hParts]
      cases zone.isEmpty || zone.contains '%' <;> simp
    rw [hRead, or_iff_right hNotSix]
    constructor
    · rintro ⟨hSix, hZone⟩
      exact ⟨address, zone, hSix, hZone, hText⟩
    · rintro ⟨front, rest, hSix, hZone, hOther⟩
      have hSame :
          some (front, rest) = some (address, zone) := by
        rw [← hParts, Text.splitFirst?_eq_some_iff.mpr
          ⟨hOther, hSix.percent_not_mem⟩]
      cases hSame
      exact ⟨hSix, hZone⟩
  · have hRead :
        (sixOfChars? cs).isSome = true ↔ IsSix cs := by
      rw [← Ipv6.isSome_ofChars?_iff]
      simp [sixOfChars?, hSlash,
        Text.splitFirst?_of_not_mem hPercent]
    rw [hRead, or_iff_left]
    rintro ⟨address, zone, _, _, rfl⟩
    exact hPercent (by simp)

/- Exactly the literals of the grammar are read. -/
theorem isSome_ofText?_iff
    {s : String}
    (hSlash : '/' ∉ s.toList) :
    (ofText? s).isSome = true ↔ IsLiteral s.toList := by
  rw [IsLiteral, ← isSome_sixOfChars?_iff hSlash,
    ← Ipv4.isSome_ofChars?_iff]
  unfold ofText?
  cases Ipv4.ofChars? s.toList with
  | none => simp
  | some a => simp

end Address

end Net

end LocalCert
