import LocalCert.Encoding.Der.Fields
import LocalCert.Encoding.Identifier
import LocalCert.Inspection.Defect

/-
  Extensions as they stand in a certificate, and what it
  means to check the value of one.

  Key definitions include:
    * `Certificate.Extension`
    * `Certificate.extension?`
    * `Certificate.Extension.Check`
-/

------------------------------------------------------------
-- Extensions
------------------------------------------------------------

namespace LocalCert

namespace Certificate

open Inspection

/- An extension: its identifier and its value. -/
structure Extension where
  identifier : Bytes
  value : Bytes
  deriving DecidableEq, Repr

/-
  An extension; whether it is critical is said only if it
  is.
-/
def extension?
    (e : Der.Element) : Option Extension :=
  e.fields? do
    let identifier ← Der.Fields.need Der.Element.identifier?
    let _ ← Der.Fields.orUsual false
      (Der.Fields.withTag Der.Tag.boolean Der.Element.bool?)
    let value ← Der.Fields.need Der.Element.octets?
    return ⟨identifier, value⟩

namespace Extension

/- The identifiers of extensions of names and keys. -/
def standard
    (n : Nat) : Bytes :=
  Identifier.ofArcs [2, 5, 29, n]

/- The identifiers of extensions for use on the network. -/
def network
    (n : Nat) : Bytes :=
  Identifier.ofArcs [1, 3, 6, 1, 5, 5, 7, 1, n]

/- The identifiers of extensions for public logs. -/
def logged
    (n : Nat) : Bytes :=
  Identifier.ofArcs [1, 3, 6, 1, 4, 1, 11129, 2, 4, n]

------------------------------------------------------------
-- Checks
------------------------------------------------------------

/- A check of the element that the value of one holds. -/
abbrev Check : Type :=
  Der.Element → Except Defect Unit

/- The check that an element has a form. -/
def ofForm
    {α : Type}
    (read : Der.Element → Option α) : Check :=
  fun e => (orMalformed (read e)).map (fun _ => ())

end Extension

end Certificate

end LocalCert
