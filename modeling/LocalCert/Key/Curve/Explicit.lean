import LocalCert.Encoding.CurveParameters
import LocalCert.Key.Curve.Named

/-
  Curves that are described in full.  Such a description is
  accepted only if it is that of a curve with a name, given
  in the one usual way.

  Key definitions include:
    * `Curve.seeds`
    * `Curve.domain`
    * `Curve.ofDomain?`
    * `Curve.ofParameters?`
-/

------------------------------------------------------------
-- Descriptions Of Curves
------------------------------------------------------------

namespace LocalCert

namespace Curve

/-
  The curves that may be described in full, with the seeds
  from which their coefficients were drawn.
-/
def seeds : List (Curve × Nat) :=
  [(prime256, 0xC49D360886E704936A6678E1139D26B7819F7E90),
    (prime384, 0xA335926AA319A27A1D00896A6773A4827ACDAC73),
    (prime521, 0xD09E8800291CB85396CC6717393284AAA0DA64BA)]

/- The description of a curve, with a seed or without. -/
def domain
    (c : Curve)
    (seed : Option Nat) : CurveDomain where
  version := 1
  prime := c.prime
  a := BigEndian.ofNat c.width c.a
  b := BigEndian.ofNat c.width c.b
  seed := seed.map (fun s => (0, BigEndian.ofNat 20 s))
  base := c.encodePoint c.baseX c.baseY
  order := c.order
  cofactor := some 1

/- The curve with a name that a description describes. -/
def ofDomain?
    (d : CurveDomain) : Option Curve :=
  (seeds.find?
    (fun s =>
      d == s.1.domain none ||
        d == s.1.domain (some s.2))).map Prod.fst

------------------------------------------------------------
-- Parameters
------------------------------------------------------------

/- The curve that parameters say. -/
def ofParameters? : CurveParameters → Option Curve
  | .named identifier => ofIdentifier? identifier
  | .implied => none
  | .explicit d => ofDomain? d

end Curve

end LocalCert
