import LocalCert.Encoding.Algorithm.Parameters

/-
  Algorithms as they are named in keys and certificates: an
  identifier with parameters whose form depends on it.

  Key definitions include:
    * `Algorithm`
    * `Algorithm.ofElement?`
-/

------------------------------------------------------------
-- Algorithms
------------------------------------------------------------

namespace LocalCert

open Der

/- An algorithm with its parameters, if there are any. -/
structure Algorithm where
  identifier : Bytes
  parameters : Option Element
  deriving DecidableEq, Repr

namespace Algorithm

/-
  The algorithm that an element names, where algorithms in
  its parameters are read by another reader.
-/
def read?
    (algorithm? : Reader)
    (e : Element) : Option Algorithm :=
  e.fields? do
    let identifier ← Fields.need Element.identifier?
    let parameters ← get
    form algorithm? identifier
    return ⟨identifier, parameters.head?⟩

/- The bytes of an algorithm, nested no deeper than fuel. -/
def bytes?
    (fuel : Nat)
    (e : Element) : Option Bytes :=
  match fuel with
  | 0 => none
  | fuel + 1 =>
      (read? (bytes? fuel) e).map (fun _ => e.whole)

/-
  The algorithm that an element names; each one nested in it
  takes up some of its bytes.
-/
def ofElement?
    (e : Element) : Option Algorithm :=
  read? (bytes? e.content.length) e

/- The curve parameters of an algorithm, if it has some. -/
def curveParameters?
    (a : Algorithm) : Option CurveParameters :=
  a.parameters.bind CurveParameters.ofElement?

end Algorithm

end LocalCert
