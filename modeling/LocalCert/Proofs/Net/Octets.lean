import LocalCert.Net.Grammar
import LocalCert.Proofs.Text.Numerals
import LocalCert.Proofs.Text.Pieces

/-
  Addresses of four octets.  Exactly the texts of their
  grammar are read, and each address has one text: writing
  and reading undo each other.

  Main declarations:
    * `Net.Ipv4.octet?_eq_some_iff`
    * `Net.Ipv4.ofChars?_eq_some_iff`
    * `Net.Ipv4.isSome_ofChars?_iff`
    * `Net.Ipv4.ofChars?_text`
    * `Net.Ipv4.text_of_ofChars?`
-/

------------------------------------------------------------
-- Single Octets
------------------------------------------------------------

namespace LocalCert

namespace Net

variable {ds cs : List Char}

/- The characters of an octet are digits. -/
theorem IsOctet.isDigit
    (hOctet : IsOctet ds) :
    ∀ d ∈ ds, Text.isDigit d = true := by
  intro d hDigit
  exact Text.isDigit_iff.2 (hOctet.2.1 d hDigit)

theorem IsOctet.ne_nil
    (hOctet : IsOctet ds) :
    ds ≠ [] := by
  rintro rfl
  rcases hOctet.1 with hLength | hLength | hLength <;>
    cases hLength

theorem IsOctet.not_mem
    {c : Char}
    (hOctet : IsOctet ds)
    (hOther : Text.isDigit c = false) :
    c ∉ ds := by
  intro hChar
  rw [hOctet.isDigit c hChar] at hOther
  cases hOther

namespace Ipv4

/- No zero stands in front of other digits. -/
theorem head?_imp_eq_iff
    (hSome : ds ≠ []) :
    (ds.head? = some '0' → ds = ['0']) ↔
      ¬ (ds.head? = some '0' ∧ 1 < ds.length) := by
  match ds, hSome with
  | [d], _ => simp
  | d :: e :: ds, _ => simp

/- Octets are read from their grammar. -/
theorem octet?_eq_some_iff
    {o : UInt8} :
    octet? ds = some o ↔
      IsOctet ds ∧
        UInt8.ofNat (Text.ofDecimalDigits ds) = o := by
  have hLength :
      (ds.length = 1 ∨ ds.length = 2 ∨ ds.length = 3) ↔
        ds ≠ [] ∧ ¬ 3 < ds.length := by
    rw [← List.length_pos_iff]
    omega
  have hDigits :
      (∀ d ∈ ds, '0' ≤ d ∧ d ≤ '9') ↔
        ds.all Text.isDigit = true := by
    simp only [List.all_eq_true, Text.isDigit_iff]
  have hOctet :
      IsOctet ds ↔
        (ds ≠ [] ∧ ¬ 3 < ds.length ∧
            ds.all Text.isDigit = true) ∧
          ¬ (ds.head? = some '0' ∧ 1 < ds.length) ∧
          ¬ 255 < Text.ofDecimalDigits ds := by
    unfold IsOctet
    rw [hLength, hDigits]
    constructor
    · rintro ⟨⟨hSome, hShort⟩, hAll, hSmall, hZero⟩
      exact ⟨⟨hSome, hShort, hAll⟩,
        (head?_imp_eq_iff hSome).mp hZero,
        Nat.not_lt.mpr hSmall⟩
    · rintro ⟨⟨hSome, hShort, hAll⟩, hZero, hSmall⟩
      exact ⟨⟨hSome, hShort⟩, hAll, Nat.not_lt.mp hSmall,
        (head?_imp_eq_iff hSome).mpr hZero⟩
  have hForm :
      (ds.isEmpty || decide (3 < ds.length) ||
          !ds.all Text.isDigit) = false ↔
        ds ≠ [] ∧ ¬ 3 < ds.length ∧
          ds.all Text.isDigit = true := by
    simp [and_assoc]
  have hZero :
      (ds.head? == some '0' && decide (1 < ds.length)) =
          false ↔
        ¬ (ds.head? = some '0' ∧ 1 < ds.length) := by
    simp
  rw [hOctet, ← hForm, ← hZero]
  unfold octet?
  simp only
  split
  · next hBad => simp [hBad]
  · next hGood =>
      split
      · next hBad => simp [hBad]
      · next hOther =>
          split
          · next hLarge => simp [hLarge]
          · next hSmall => simp [hGood, hOther, hSmall]

/- Every octet has a text, and no other one. -/
theorem octet?_decimalDigits
    (o : UInt8) :
    octet? (Text.decimalDigits o.toNat) = some o := by
  have hAll :
      ∀ n < 256,
        octet? (Text.decimalDigits n) =
          some (UInt8.ofNat n) := by
    decide +kernel
  rw [hAll o.toNat o.toNat_lt, UInt8.ofNat_toNat]

theorem decimalDigits_of_octet?
    {o : UInt8}
    (hOctet : octet? ds = some o) :
    Text.decimalDigits o.toNat = ds := by
  rcases octet?_eq_some_iff.1 hOctet with ⟨hIs, rfl⟩
  have hSmall := hIs.2.2.1
  rw [UInt8.toNat_ofNat', Nat.mod_eq_of_lt (by omega)]
  exact (Text.decimalDigits_ofDecimalDigits hIs.ne_nil
    hIs.isDigit hIs.2.2.2).1

------------------------------------------------------------
-- Four Octets
------------------------------------------------------------

theorem exists_octets
    (a : Ipv4) :
    ∃ w x y z, a = ofOctets w x y z := by
  rcases a with ⟨⟨⟨octets⟩, hLength⟩⟩
  match octets, hLength with
  | [w, x, y, z], _ => exact ⟨w, x, y, z, rfl⟩

/- Four octets are read between three dots. -/
theorem ofChars?_eq_some_iff
    {a : Ipv4} :
    ofChars? cs = some a ↔
      ∃ p q r s w x y z,
        octet? p = some w ∧ octet? q = some x ∧
          octet? r = some y ∧ octet? s = some z ∧
          a = ofOctets w x y z ∧
          cs = p ++ '.' :: q ++ '.' :: r ++ '.' :: s := by
  constructor
  · intro hRead
    unfold ofChars? at hRead
    split at hRead
    · next p q r s hSplit =>
        split at hRead
        · next w x y z hp hq hr hs =>
            refine ⟨p, q, r, s, w, x, y, z, hp, hq, hr, hs,
              (Option.some.inj hRead).symm, ?_⟩
            rw [← Text.join_splitAll '.' cs, hSplit]
            simp
        · cases hRead
    · cases hRead
  · rintro ⟨p, q, r, s, w, x, y, z, hp, hq, hr, hs, rfl, rfl⟩
    have hFree :
        ∀ {ds o}, octet? ds = some o →
          Text.splitAll '.' ds = [ds] := by
      intro ds o hOctet
      apply Text.splitAll_of_not_mem
      exact (octet?_eq_some_iff.1 hOctet).1.not_mem
        (by decide)
    unfold ofChars?
    simp only [Text.splitAll_append_cons, hFree hp, hFree hq,
      hFree hr, hFree hs, List.cons_append,
      List.nil_append, hp, hq, hr, hs]

/- Exactly the texts of the grammar are read. -/
theorem isSome_ofChars?_iff :
    (ofChars? cs).isSome = true ↔ IsFour cs := by
  rw [Option.isSome_iff_exists]
  constructor
  · rintro ⟨a, hRead⟩
    rcases ofChars?_eq_some_iff.1 hRead with
      ⟨p, q, r, s, w, x, y, z, hp, hq, hr, hs, _, hText⟩
    exact ⟨p, q, r, s, (octet?_eq_some_iff.1 hp).1,
      (octet?_eq_some_iff.1 hq).1,
      (octet?_eq_some_iff.1 hr).1,
      (octet?_eq_some_iff.1 hs).1, hText⟩
  · rintro ⟨p, q, r, s, hp, hq, hr, hs, hText⟩
    exact ⟨_, ofChars?_eq_some_iff.2
      ⟨p, q, r, s, _, _, _, _,
        octet?_eq_some_iff.2 ⟨hp, rfl⟩,
        octet?_eq_some_iff.2 ⟨hq, rfl⟩,
        octet?_eq_some_iff.2 ⟨hr, rfl⟩,
        octet?_eq_some_iff.2 ⟨hs, rfl⟩, rfl, hText⟩⟩

/- The text of an address, as characters. -/
theorem toList_text_ofOctets
    (w x y z : UInt8) :
    (ofOctets w x y z).text.toList =
      Text.decimalDigits w.toNat ++
        '.' :: Text.decimalDigits x.toNat ++
        '.' :: Text.decimalDigits y.toNat ++
        '.' :: Text.decimalDigits z.toNat := by
  simp [text, ofOctets, Text.joinWith]

/- What was written is read back. -/
theorem ofChars?_text
    (a : Ipv4) :
    ofChars? a.text.toList = some a := by
  rcases exists_octets a with ⟨w, x, y, z, rfl⟩
  rw [toList_text_ofOctets]
  exact ofChars?_eq_some_iff.2
    ⟨_, _, _, _, w, x, y, z, octet?_decimalDigits w,
      octet?_decimalDigits x, octet?_decimalDigits y,
      octet?_decimalDigits z, rfl, rfl⟩

/- What was read is written as it was. -/
theorem text_of_ofChars?
    {a : Ipv4}
    (hRead : ofChars? cs = some a) :
    a.text.toList = cs := by
  rcases ofChars?_eq_some_iff.1 hRead with
    ⟨p, q, r, s, w, x, y, z, hp, hq, hr, hs, rfl, rfl⟩
  rw [toList_text_ofOctets, decimalDigits_of_octet? hp,
    decimalDigits_of_octet? hq, decimalDigits_of_octet? hr,
    decimalDigits_of_octet? hs]

end Ipv4

/- Digits and dots are all that four octets are made of. -/
theorem IsFour.not_mem
    {c : Char}
    (hFour : IsFour cs)
    (hDigit : Text.isDigit c = false)
    (hDot : c ≠ '.') :
    c ∉ cs := by
  rcases hFour with ⟨p, q, r, s, hp, hq, hr, hs, rfl⟩
  simp [hDot, hp.not_mem hDigit, hq.not_mem hDigit,
    hr.not_mem hDigit, hs.not_mem hDigit]

theorem IsFour.dot_mem
    (hFour : IsFour cs) :
    '.' ∈ cs := by
  rcases hFour with ⟨p, q, r, s, _, _, _, _, rfl⟩
  simp

end Net

end LocalCert
