import LocalCert.Encoding.Der.Fields
import LocalCert.Encoding.Identifier

/-
  The parameters by which a key says which curve it is on:
  the name of the curve, nothing because the curve is known,
  or all numbers of the curve.

  Key definitions include:
    * `CurveDomain`
    * `CurveParameters`
    * `CurveParameters.ofElement?`
-/

------------------------------------------------------------
-- Curves In Full
------------------------------------------------------------

namespace LocalCert

open Der

/-
  All that there is to say about a curve over a prime field:
  the prime, both coefficients with the seed they come from,
  the base point, its order and its cofactor.
-/
structure CurveDomain where
  version : Nat
  prime : Nat
  a : Bytes
  b : Bytes
  seed : Option (Nat × Bytes)
  base : Bytes
  order : Nat
  cofactor : Option Nat
  deriving DecidableEq, Repr

namespace CurveDomain

/- Fields with a prime number of elements. -/
def primeField : Bytes :=
  Identifier.ofArcs [1, 2, 840, 10045, 1, 1]

/- The prime of a field; no other fields are known. -/
def prime?
    (e : Element) : Option Nat :=
  e.fields? do
    let kind ← Fields.need Element.identifier?
    let prime ← Fields.need Element.nat?
    if kind == primeField then return prime else failure

/- Two coefficients and their seed. -/
def coefficients?
    (e : Element) :
    Option (Bytes × Bytes × Option (Nat × Bytes)) :=
  e.fields? do
    let a ← Fields.need Element.octets?
    let b ← Fields.need Element.octets?
    let seed ← Fields.withTag Tag.bitString Element.bitString?
    return (a, b, seed)

/- The curve that an element describes in full. -/
def ofElement?
    (e : Element) : Option CurveDomain :=
  e.fields? do
    let version ← Fields.need Element.byte?
    let prime ← Fields.need prime?
    let (a, b, seed) ← Fields.need coefficients?
    let base ← Fields.need Element.octets?
    let order ← Fields.need Element.nat?
    let cofactor ← Fields.withTag Tag.integer Element.nat?
    return { version, prime, a, b, seed, base, order,
             cofactor }

end CurveDomain

------------------------------------------------------------
-- Parameters
------------------------------------------------------------

/- What a key says about its curve. -/
inductive CurveParameters where
  | named (identifier : Bytes)
  | implied
  | explicit (d : CurveDomain)
  deriving DecidableEq, Repr

namespace CurveParameters

/- The parameters in an element. -/
def ofElement?
    (e : Element) : Option CurveParameters :=
  if e.tag == Tag.identifier then
    e.identifier?.map .named
  else if e.tag == Tag.null then
    e.null?.map (fun _ => .implied)
  else
    (CurveDomain.ofElement? e).map .explicit

end CurveParameters

end LocalCert
