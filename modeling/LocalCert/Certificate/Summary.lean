import LocalCert.Certificate.Basic
import LocalCert.Inspection.Serial
import LocalCert.Key.Private

/-
  What is told about a certificate, and whether a private
  key belongs to it.

  Key definitions include:
    * `Certificate.altNameTexts`
    * `Certificate.Summary`
    * `Certificate.summary`
    * `Certificate.matchesKey`
-/

------------------------------------------------------------
-- Alternative Names
------------------------------------------------------------

namespace LocalCert

open Inspection

namespace Certificate

/- Host names in order, then addresses in order. -/
def altNameTexts
    (names : List GeneralName) : List String :=
  names.filterMap GeneralName.dnsText? ++
    names.filterMap GeneralName.addressText?

/- The texts of a certificate's alternative names. -/
def shownAltNames
    (c : Certificate) : Except Defect (List String) :=
  c.altNames.map (fun names => altNameTexts (names.getD []))

------------------------------------------------------------
-- Summaries
------------------------------------------------------------

/- What is told about a certificate. -/
structure Summary where
  serial : String
  commonName : String
  altNames : List String
  validFrom : String
  validTo : String
  selfSigned : Bool
  deriving DecidableEq, Repr

/- The first common name, or nothing if there is none. -/
def commonNameText
    (n : Name) : Except Defect String :=
  match n.commonNames with
  | [] => .ok ""
  | .text s :: _ => .ok s
  | .bytes _ :: _ => .error .commonNameNotText

/- The text of a moment that can be shown. -/
def shownMoment
    (m : Moment) : Except Defect String :=
  if m.isValid then .ok m.text else .error .malformed

/- The summary of a certificate. -/
def summary
    (c : Certificate) : Except Defect Summary := do
  let subject ← c.subject
  let commonName ← commonNameText subject
  let altNames ← c.shownAltNames
  let validFrom ← shownMoment c.validFrom
  let validTo ← shownMoment c.validTo
  let issuer ← c.issuer
  return {
    serial := Serial.text c.serial
    commonName, altNames, validFrom, validTo
    selfSigned := issuer.same subject }

------------------------------------------------------------
-- Keys
------------------------------------------------------------

/-
  Whether a private key and a certificate have the same
  public key.
-/
def matchesKey
    (key cert : Bytes) : Except Defect Bool := do
  let key ← PrivateKey.ofPem key
  let c ← ofPem cert
  let publicKey ← c.publicKey
  return key.publicKey.encode == publicKey.encode

end Certificate

end LocalCert
