import LocalCert.Number.Double
import LocalCert.Text.Digit

/-
  The text of a double: the fewest decimal digits that read
  back as the same double, written positionally for numbers
  of middling size and with an exponent for the others.

  Key definitions include:
    * `Decimal`
    * `Decimal.shortest`
    * `Double.text`
-/

------------------------------------------------------------
-- Decimals
------------------------------------------------------------

namespace LocalCert

/-
  A decimal number: the digits of a whole number with the
  point standing before the digit `point`; the value is
  `0.digits * 10 ^ point`.
-/
structure Decimal where
  digits : List Char
  point : Int
  deriving DecidableEq, Repr, Inhabited

namespace Decimal

/- A quotient times a power of ten. -/
def scaleByTen
    (r : Double.Ratio)
    (power : Int) : Double.Ratio :=
  match power with
  | .ofNat n => ⟨r.num * Nat.pow 10 n, r.den⟩
  | .negSucc n => ⟨r.num, r.den * Nat.pow 10 (n + 1)⟩

/-
  The place of the point for a positive quotient: the number
  of digits before it, or minus the zeros after it.
-/
def pointOf
    (r : Double.Ratio) : Int :=
  if r.den ≤ r.num then
    Int.ofNat (Text.decimalDigits (r.num / r.den)).length
  else
    let inverse := (r.den + r.num - 1) / r.num
    1 - Int.ofNat (Text.decimalDigits (inverse - 1)).length

/- A decimal from a whole number at a place, trimmed. -/
def ofWhole
    (n : Nat)
    (lastPlace : Int) : Decimal :=
  let ds := Text.decimalDigits n
  let kept := (ds.reverse.dropWhile (· == '0')).reverse
  ⟨kept, Int.ofNat ds.length - lastPlace⟩

------------------------------------------------------------
-- The Shortest Decimal
------------------------------------------------------------

/-
  The reals that round to a double, on a scale on which the
  double and the ends are whole; the ends belong to them
  exactly when the mantissa is even.
-/
structure Range where
  low : Nat
  value : Nat
  high : Nat
  ends : Bool
  deriving Repr

/- The range of a mantissa, in quarters of its last unit. -/
def rangeOf
    (mantissa : Nat)
    (exponent : Int) : Range :=
  let below :=
    if mantissa == Nat.pow 2 52 && Double.minExponent < exponent
      then 1 else 2
  ⟨4 * mantissa - below, 4 * mantissa, 4 * mantissa + 2,
    mantissa % 2 == 0⟩

/- Whether a point of the decimal grid lies in a range. -/
def Range.holds
    (r : Range)
    (point scale : Nat) : Bool :=
  if r.ends then
    r.low * scale ≤ point && point ≤ r.high * scale
  else
    r.low * scale < point && point < r.high * scale

/-
  The best decimal with so many digits, if one lies in the
  range: the nearer of the two neighbours of the value, and
  the even one if they are equally near.
-/
def bestWith
    (count : Nat)
    (range : Range)
    (exponent : Int)
    (point : Int) : Option Decimal :=
  let lastPlace := Int.ofNat count - point
  let unit := Double.Ratio.scale ⟨1, 1⟩ (exponent - 2)
  let step := scaleByTen unit lastPlace
  let lower := range.value * step.num / step.den
  let upper := lower + 1
  let lowerHolds :=
    range.holds (lower * step.den) step.num
  let upperHolds :=
    range.holds (upper * step.den) step.num
  let nearest :=
    roundHalfEven (range.value * step.num) step.den
  if lowerHolds && upperHolds then
    some (ofWhole nearest lastPlace)
  else if lowerHolds then
    some (ofWhole lower lastPlace)
  else if upperHolds then
    some (ofWhole upper lastPlace)
  else
    none

/-
  The shortest decimal that reads back as a positive double;
  seventeen digits always suffice.
-/
def shortest
    (mantissa : Nat)
    (exponent : Int) : Decimal :=
  let range := rangeOf mantissa exponent
  let point :=
    pointOf (Double.sizeOfFinite mantissa exponent)
  let tried :=
    (List.range 17).findSome?
      (fun n => bestWith (n + 1) range exponent point)
  tried.getD ⟨['0'], 1⟩

------------------------------------------------------------
-- Writing Decimals
------------------------------------------------------------

/- The sign and at least two digits of an exponent. -/
def exponentText
    (e : Int) : List Char :=
  (if e < 0 then '-' else '+') ::
    Text.paddedDecimal 2 e.natAbs

/- A decimal with its point among its digits. -/
def positional
    (d : Decimal) : List Char :=
  match d.point with
  | .ofNat 0 => ['0', '.'] ++ d.digits
  | .ofNat n =>
      let whole := d.digits.take n
      let fraction := d.digits.drop n
      whole ++ List.replicate (n - whole.length) '0' ++
        ['.'] ++ (if fraction.isEmpty then ['0'] else fraction)
  | .negSucc n =>
      ['0', '.'] ++ List.replicate (n + 1) '0' ++ d.digits

/- A decimal with one digit before its point. -/
def scientific
    (d : Decimal) : List Char :=
  let head := d.digits.take 1
  let tail := d.digits.drop 1
  head ++ (if tail.isEmpty then [] else '.' :: tail) ++
    ['e'] ++ exponentText (d.point - 1)

/-
  Numbers from a ten-thousandth up to ten to the sixteenth
  are written positionally.
-/
def text
    (d : Decimal) : List Char :=
  if -4 < d.point && d.point ≤ 16 then
    d.positional
  else
    d.scientific

end Decimal

------------------------------------------------------------
-- The Text Of A Double
------------------------------------------------------------

namespace Double

/- A sign before some characters. -/
def signed
    (negative : Bool)
    (cs : List Char) : List Char :=
  if negative then '-' :: cs else cs

/- The shortest text that reads back as the double. -/
def text : Double → String
  | .finite negative 0 _ =>
      String.ofList (signed negative ['0', '.', '0'])
  | .finite negative m e =>
      String.ofList
        (signed negative (Decimal.shortest m e).text)
  | .infinite negative =>
      String.ofList (signed negative ['i', 'n', 'f'])
  | .notNumber => "nan"

end Double

end LocalCert
