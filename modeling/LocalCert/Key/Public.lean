import LocalCert.Encoding.Algorithm
import LocalCert.Inspection.Defect
import LocalCert.Key.Curve.Explicit
import LocalCert.Key.Rsa

/-
  Public keys, with the one encoding by which they are
  compared.

  Key definitions include:
    * `PublicKey`
    * `PublicKey.encode`
    * `PublicKey.Info`
    * `PublicKey.Info.key`
-/

------------------------------------------------------------
-- Public Keys
------------------------------------------------------------

namespace LocalCert

open Inspection

/- A public key. -/
inductive PublicKey where
  | onCurve (c : Curve) (x y : Nat)
  | rsa (k : Rsa.PublicKey)
  | edwards (bytes : Bytes)
  deriving DecidableEq, Repr

namespace PublicKey

/- An algorithm with the bits of a key. -/
def encodeWith
    (algorithm : Bytes)
    (bits : Bytes) : Bytes :=
  Der.encode Der.Tag.sequence
    (algorithm ++ Der.encode Der.Tag.bitString (0 :: bits))

/- A public key as bytes. -/
def encode : PublicKey → Bytes
  | .onCurve c x y =>
      encodeWith
        (Algorithm.encode Algorithm.curveKey
          (Der.encode Der.Tag.identifier c.identifier))
        (c.encodePoint x y)
  | .rsa k =>
      encodeWith
        (Algorithm.encode Algorithm.rsaKey
          (Der.encode Der.Tag.null []))
        k.encode
  | .edwards bytes =>
      encodeWith (Algorithm.encode Algorithm.edwardsKey [])
        bytes

------------------------------------------------------------
-- Reading
------------------------------------------------------------

/-
  A public key whose bits are not read yet.  The number of
  unused bits must turn out to be zero.
-/
structure Info where
  algorithm : Algorithm
  unused : Nat
  bits : Bytes
  deriving DecidableEq, Repr

/- A public key in an element. -/
def info? : Der.Element → Option Info :=
  Der.Element.fields? do
    let algorithm ← Der.Fields.need Algorithm.ofElement?
    let (unused, bits) ←
      Der.Fields.need Der.Element.bitString?
    return ⟨algorithm, unused, bits⟩

/- The curve that parameters say. -/
def curveOf
    (parameters : Option CurveParameters) :
    Except Defect Curve := do
  match Curve.ofParameters? (← orMalformed parameters) with
  | some c => return c
  | none => .error .unsupportedAlgorithm

/- Keys of two primes, whatever they are used for. -/
def rsaKeys : List Bytes :=
  [Algorithm.rsaKey, Algorithm.rsaPssKey]

/- The public key whose bits these are. -/
def Info.key
    (i : Info) : Except Defect PublicKey :=
  let identifier := i.algorithm.identifier
  if i.unused != 0 then
    .error .malformed
  else if identifier == Algorithm.curveKey then do
    let c ← curveOf i.algorithm.curveParameters?
    let (x, y) ← orMalformed (c.decodePoint? i.bits)
    return .onCurve c x y
  else if rsaKeys.contains identifier then do
    let k ← orMalformed (Rsa.PublicKey.ofBytes? i.bits)
    return .rsa k
  else if identifier == Algorithm.edwardsKey then
    if i.bits.length == 32 then
      .ok (.edwards i.bits)
    else
      .error .malformed
  else
    .error .unsupportedAlgorithm

end PublicKey

end LocalCert
