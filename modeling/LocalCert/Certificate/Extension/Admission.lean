import LocalCert.Certificate.Extension.Names

/-
  The admission of a subject to professions, by authorities
  that may be named.

  Key definitions include:
    * `Extension.namingAuthority?`
    * `Extension.profession?`
    * `Extension.admission`
-/

------------------------------------------------------------
-- Professions
------------------------------------------------------------

namespace LocalCert

namespace Certificate

namespace Extension

open Der Inspection

/- An authority: an identifier, an address and a text. -/
def namingAuthority? : Element → Option Unit :=
  Element.fields? do
    let _ ← Fields.withTag Tag.identifier
      Element.identifier?
    let _ ← Fields.withTag Tag.asciiText Element.asciiText?
    let _ ← Fields.optional Element.beginsDisplay
      Element.displayText?

/- Professions with their authority and further data. -/
def profession? : Element → Option Unit :=
  Element.fields? do
    let _ ← Fields.explicit 0 namingAuthority?
    let _ ← Fields.need (Element.each? Element.displayText?)
    let _ ← Fields.withTag Tag.sequence
      (Element.each? Element.identifier?)
    let _ ← Fields.withTag Tag.printableText
      Element.printableText?
    let _ ← Fields.withTag Tag.octetString Element.octets?

------------------------------------------------------------
-- Admissions
------------------------------------------------------------

/- The authority of an admission, which may be missing. -/
def admission? : Element → Option (Option RawGeneralName) :=
  Element.fields? do
    let authority ← Fields.explicit 0 rawGeneralName?
    let _ ← Fields.explicit 1 namingAuthority?
    let _ ← Fields.need (Element.each? profession?)
    return authority

/- All authorities of admissions. -/
def admissions? : Element → Option (List RawGeneralName) :=
  Element.fields? do
    let authority ←
      Fields.optional GeneralName.begins rawGeneralName?
    let others ← Fields.need (Element.each? admission?)
    return authority.toList ++ others.filterMap id

/- Admissions, whose authorities are read in order. -/
def admission : Check := fun e => do
  let names ← orMalformed (admissions? e)
  let _ ← decodeNames names

end Extension

end Certificate

end LocalCert
