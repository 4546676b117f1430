/-
  Double precision numbers, as exact data: a finite number
  is a signed whole number times a power of two.

  Key definitions include:
    * `Double`
    * `Double.ofRatio`
    * `Double.Ratio`
    * `roundHalfEven`
-/

------------------------------------------------------------
-- Rounding A Quotient
------------------------------------------------------------

namespace LocalCert

/-
  The whole number nearest to a quotient; of two that are
  equally near, the even one.
-/
def roundHalfEven
    (num den : Nat) : Nat :=
  let q := num / den
  let r := num % den
  if 2 * r < den then
    q
  else if den < 2 * r then
    q + 1
  else if q % 2 == 0 then
    q
  else
    q + 1

------------------------------------------------------------
-- Numbers
------------------------------------------------------------

/-
  A double: a finite number `mantissa * 2 ^ exponent` with
  its sign, an infinity, or no number at all.
-/
inductive Double where
  | finite (negative : Bool) (mantissa : Nat) (exponent : Int)
  | infinite (negative : Bool)
  | notNumber
  deriving DecidableEq, Repr, Inhabited

namespace Double

/- The least exponent of a finite double. -/
def minExponent : Int := -1074

/- The greatest exponent of a finite double. -/
def maxExponent : Int := 971

/- A quotient of whole numbers that is not negative. -/
structure Ratio where
  num : Nat
  den : Nat
  deriving DecidableEq, Repr, Inhabited

/- A quotient times a power of two. -/
def Ratio.scale
    (r : Ratio)
    (power : Int) : Ratio :=
  match power with
  | .ofNat n => ⟨r.num * Nat.pow 2 n, r.den⟩
  | .negSucc n => ⟨r.num, r.den * Nat.pow 2 (n + 1)⟩

/-
  The exponent at which a positive quotient has a mantissa
  of fifty-three bits, or the least exponent.
-/
def exponentOf
    (r : Ratio) : Int :=
  let guess : Int :=
    Int.ofNat r.num.log2 - Int.ofNat r.den.log2 - 53
  let scaled := r.scale (-guess)
  let exact :=
    if Nat.pow 2 53 ≤ scaled.num / scaled.den then
      guess + 1
    else
      guess
  max exact minExponent

/- The double nearest to a quotient, ties to even. -/
def ofRatio
    (negative : Bool)
    (r : Ratio) : Double :=
  if r.num == 0 then
    .finite negative 0 minExponent
  else
    let e := exponentOf r
    let scaled := r.scale (-e)
    let m := roundHalfEven scaled.num scaled.den
    let (m, e) :=
      if m == Nat.pow 2 53 then (Nat.pow 2 52, e + 1)
      else (m, e)
    if maxExponent < e then
      .infinite negative
    else
      .finite negative m e

/- The double nearest to a whole number. -/
def ofInt
    (i : Int) : Double :=
  ofRatio (decide (i < 0)) ⟨i.natAbs, 1⟩

/- The size of a finite double as a quotient. -/
def sizeOfFinite
    (mantissa : Nat)
    (exponent : Int) : Ratio :=
  Ratio.scale ⟨mantissa, 1⟩ exponent

/- The whole number in a finite double, toward zero. -/
def truncate
    (negative : Bool)
    (mantissa : Nat)
    (exponent : Int) : Int :=
  let r := sizeOfFinite mantissa exponent
  let q := r.num / r.den
  if negative then -Int.ofNat q else Int.ofNat q

end Double

end LocalCert
