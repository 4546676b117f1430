/-
  The defects that the inspection of a key or a certificate
  can find.

  Key definitions include:
    * `Inspection.Defect`
    * `Inspection.Defect.message`
    * `Inspection.orMalformed`
    * `Inspection.require`
-/

------------------------------------------------------------
-- Defects
------------------------------------------------------------

namespace LocalCert

namespace Inspection

/- Why a key or a certificate cannot be inspected. -/
inductive Defect where
  /- The encoding breaks a rule of its format. -/
  | malformed
  /- The value is of a kind that is not allowed here. -/
  | unsuitable
  /- One extension occurs twice. -/
  | duplicateExtension
  /- The algorithm or the curve is unknown. -/
  | unsupportedAlgorithm
  /- A general name is of a kind that is not read. -/
  | unsupportedName
  /- The version of the certificate is unknown. -/
  | invalidVersion
  /- The library that computes with keys gives up. -/
  | notComputed
  /- A feature has a number that is unknown. -/
  | unknownFeature
  /- The common name is no text. -/
  | commonNameNotText
  deriving DecidableEq, Repr

/- The message of the one defect that has words. -/
def Defect.message : Defect → String
  | .commonNameNotText => "CN must be string"
  | _ => "the encoding cannot be inspected"

------------------------------------------------------------
-- Finding Defects
------------------------------------------------------------

/- Something found, or else a malformed encoding. -/
def orMalformed
    {α : Type}
    (found : Option α) : Except Defect α :=
  match found with
  | some a => .ok a
  | none => .error .malformed

/- An encoding is malformed unless a property holds. -/
def require
    (holds : Bool) : Except Defect Unit :=
  if holds then .ok () else .error .malformed

end Inspection

end LocalCert
