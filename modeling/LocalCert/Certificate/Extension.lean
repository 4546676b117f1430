import LocalCert.Certificate.Extension.Admission
import LocalCert.Certificate.Extension.Policies
import LocalCert.Certificate.Extension.Timestamps
import LocalCert.Certificate.Extension.Usage

/-
  The extensions of a certificate.  Those of a known kind
  must pass its check; unknown ones are passed over.

  Key definitions include:
    * `Certificate.Extension.checks`
    * `Certificate.Extension.check`
    * `Certificate.altNamesAmong`
-/

------------------------------------------------------------
-- Known Extensions
------------------------------------------------------------

namespace LocalCert

namespace Certificate

open Der Inspection

namespace Extension

/- The identifier of the subject's alternative names. -/
def subjectAltName : Bytes := standard 17

/- The check of a list of general names. -/
def altNames : Check := fun e => do
  let _ ← generalNames e

/- The template by which a certificate was made. -/
def templateIdentifier : Bytes :=
  Identifier.ofArcs [1, 3, 6, 1, 4, 1, 311, 21, 7]

/- Admissions to professions. -/
def admissionIdentifier : Bytes :=
  Identifier.ofArcs [1, 3, 36, 8, 3, 3]

/- No question about withdrawal need be asked. -/
def noCheckIdentifier : Bytes :=
  Identifier.ofArcs [1, 3, 6, 1, 5, 5, 7, 48, 1, 5]

/- The known identifiers and the checks of their values. -/
def checks : List (Bytes × Check) :=
  [(subjectAltName, altNames),
    (standard 18, altNames),
    (standard 14, ofForm Element.octets?),
    (standard 15, keyUsage),
    (standard 16, usagePeriod),
    (standard 19, authority),
    (standard 30, nameConstraints),
    (standard 31, distribution),
    (standard 32, policies),
    (standard 35, authorityKey),
    (standard 36, policyConstraints),
    (standard 37, extendedUsage),
    (standard 46, distribution),
    (standard 54, ofForm Element.nat?),
    (network 1, services),
    (network 11, services),
    (network 24, features),
    (noCheckIdentifier, ofForm Element.null?),
    (logged 2, timestamps),
    (logged 3, ofForm Element.null?),
    (templateIdentifier, template),
    (admissionIdentifier, admission)]

/- Check one extension. -/
def check
    (x : Extension) : Except Defect Unit :=
  match checks.find? (fun c => c.1 == x.identifier) with
  | none => .ok ()
  | some c => do c.2 (← orMalformed (single? x.value))

end Extension

------------------------------------------------------------
-- Alternative Names
------------------------------------------------------------

/- The general names that the value of an extension is. -/
def Extension.names
    (x : Extension) : Except Defect (List GeneralName) := do
  let e ← orMalformed (single? x.value)
  Extension.generalNames e

/- Whether an identifier occurs twice. -/
def repeats : List Extension → Bool
  | [] => false
  | x :: xs =>
      xs.any (fun y => y.identifier == x.identifier) ||
        repeats xs

/-
  The alternative names of the subject, if the extension is
  there; all extensions are checked on the way.
-/
def altNamesAmong
    (extensions : List Extension) :
    Except Defect (Option (List GeneralName)) :=
  if repeats extensions then
    .error .duplicateExtension
  else do
    extensions.forM Extension.check
    match extensions.find?
        (fun x => x.identifier == Extension.subjectAltName) with
    | none => return none
    | some x => return some (← x.names)

end Certificate

end LocalCert
