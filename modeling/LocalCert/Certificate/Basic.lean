import LocalCert.Certificate.Extension
import LocalCert.Encoding.Pem
import LocalCert.Key.Public

/-
  Certificates.  The outline of a certificate must be well
  formed as a whole; its names, its extensions and its key
  are read only when they are asked for, and may then turn
  out to be defective.

  Key definitions include:
    * `Certificate`
    * `Certificate.ofBytes`
    * `Certificate.ofPem`
-/

------------------------------------------------------------
-- Certificates
------------------------------------------------------------

namespace LocalCert

open Inspection

/- A certificate with the parts that can be asked for. -/
structure Certificate where
  serial : Int
  subject : Except Defect Certificate.Name
  issuer : Except Defect Certificate.Name
  altNames :
    Except Defect (Option (List Certificate.GeneralName))
  validFrom : Moment
  validTo : Moment
  publicKey : Except Defect PublicKey

namespace Certificate

------------------------------------------------------------
-- Outlines
------------------------------------------------------------

/- A certificate whose parts are not read yet. -/
structure Outline where
  version : Nat
  serial : Int
  issuer : RawName
  validFrom : Moment
  validTo : Moment
  subject : RawName
  key : PublicKey.Info
  extensions : List Extension
  deriving DecidableEq, Repr

/- The time span in an element. -/
def validity? : Der.Element → Option (Moment × Moment) :=
  Der.Element.fields? do
    let first ← Der.Fields.need Der.Element.moment?
    let last ← Der.Fields.need Der.Element.moment?
    return (first, last)

/- An optional list of bits below a number. -/
def bitsField
    (number : Nat) : Der.Fields (Option (Nat × Bytes)) :=
  Der.Fields.implicit number Der.Tag.bitString
    Der.Element.bitString?

/-
  The outline in the signed part of a certificate.  The
  first version is never written.
-/
def outline? : Der.Element → Option Outline :=
  Der.Element.fields? do
    let version ← Der.Fields.orUsual 0
      (Der.Fields.explicit 0 Der.Element.byte?)
    let serial ← Der.Fields.need Der.Element.int?
    let _ ← Der.Fields.need Algorithm.ofElement?
    let issuer ← Der.Fields.need rawName?
    let (validFrom, validTo) ← Der.Fields.need validity?
    let subject ← Der.Fields.need rawName?
    let key ← Der.Fields.need PublicKey.info?
    let _ ← bitsField 1
    let _ ← bitsField 2
    let extensions ← Der.Fields.explicit 3
      (Der.Element.each? extension?)
    return {
      version, serial, issuer, validFrom, validTo, subject,
      key, extensions := extensions.getD [] }

/- The outline of a certificate with its signature. -/
def signedOutline? : Der.Element → Option Outline :=
  Der.Element.fields? do
    let outline ← Der.Fields.need outline?
    let _ ← Der.Fields.need Algorithm.ofElement?
    let _ ← Der.Fields.need Der.Element.bitString?
    return outline

------------------------------------------------------------
-- Reading
------------------------------------------------------------

/- The certificate of an outline. -/
def ofOutline
    (o : Outline) : Certificate where
  serial := o.serial
  subject := o.subject.decode
  issuer := o.issuer.decode
  altNames := altNamesAmong o.extensions
  validFrom := o.validFrom
  validTo := o.validTo
  publicKey := o.key.key

/- The certificate that bytes are. -/
def ofBytes
    (bytes : Bytes) : Except Defect Certificate := do
  let outline ←
    orMalformed ((Der.single? bytes).bind signedOutline?)
  if outline.version == 0 || outline.version == 2 then
    return ofOutline outline
  else
    .error .invalidVersion

/- The labels of certificates. -/
def labels : List String :=
  ["CERTIFICATE", "X509 CERTIFICATE"]

/- The first certificate in the text. -/
def ofPem
    (bytes : Bytes) : Except Defect Certificate :=
  match Pem.find? labels bytes with
  | some s => ofBytes s.contents
  | none => .error .malformed

end Certificate

end LocalCert
