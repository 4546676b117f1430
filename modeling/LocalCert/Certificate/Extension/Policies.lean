import LocalCert.Certificate.Extension.Basic
import LocalCert.Encoding.Der.Text

/-
  The policies of a certificate.  A policy may be explained
  by an address or by a notice, and says which of these it
  is.

  Key definitions include:
    * `Extension.Explanation`
    * `Extension.policies`
-/

------------------------------------------------------------
-- Policies
------------------------------------------------------------

namespace LocalCert

namespace Certificate

namespace Extension

open Der Inspection

/- How a policy is explained. -/
inductive Explanation where
  | address
  | notice
  deriving DecidableEq, Repr

/- The identifier of a way to explain. -/
def Explanation.identifier : Explanation → Bytes
  | .address =>
      Identifier.ofArcs [1, 3, 6, 1, 5, 5, 7, 2, 1]
  | .notice =>
      Identifier.ofArcs [1, 3, 6, 1, 5, 5, 7, 2, 2]

/- An organization and the numbers of its notices. -/
def reference? : Element → Option Unit :=
  Element.fields? do
    let _ ← Fields.need Element.displayText?
    let _ ← Fields.need (Element.each? Element.nat?)

/- A notice: a reference and a text, or less. -/
def notice? : Element → Option Unit :=
  Element.fields? do
    let _ ← Fields.withTag Tag.sequence reference?
    let _ ← Fields.optional Element.beginsDisplay
      Element.displayText?

/- An address or a notice. -/
def explanation?
    (e : Element) : Option Explanation :=
  if e.tag == Tag.asciiText then
    e.asciiText?.map (fun _ => .address)
  else
    (notice? e).map (fun _ => .notice)

/- An explanation with the identifier in front of it. -/
def qualifier? : Element → Option (Bytes × Explanation) :=
  Element.fields? do
    let identifier ← Fields.need Element.identifier?
    let explanation ← Fields.need explanation?
    return (identifier, explanation)

/- The explanations of a policy. -/
def policy? :
    Element → Option (List (Bytes × Explanation)) :=
  Element.fields? do
    let _ ← Fields.need Element.identifier?
    let qualifiers ← Fields.withTag Tag.sequence
      (Element.each? qualifier?)
    return qualifiers.getD []

/- The policies, each explained as it says. -/
def policies : Check := fun e => do
  let found ← orMalformed (e.each? policy?)
  require
    (found.all
      (fun qualifiers =>
        qualifiers.all (fun q => q.1 == q.2.identifier)))

end Extension

end Certificate

end LocalCert
