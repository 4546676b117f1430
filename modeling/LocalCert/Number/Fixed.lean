import LocalCert.Number.Shortest

/-
  Doubles with a chosen number of digits: so many places
  after the point, so many after the first digit, or so many
  significant digits in the shorter of the two forms.

  Key definitions include:
    * `Double.Style`
    * `Double.withDigits`
-/

------------------------------------------------------------
-- Rounded Digits
------------------------------------------------------------

namespace LocalCert

namespace Decimal

/-
  The given number of significant digits of a quotient, with
  the place of the point; zero has its point after its first
  digit.
-/
def significant
    (count : Nat)
    (r : Double.Ratio) : Decimal :=
  if r.num == 0 then
    ⟨List.replicate count '0', 1⟩
  else
    let point := pointOf r
    let scaled := scaleByTen r (Int.ofNat count - point)
    let n := roundHalfEven scaled.num scaled.den
    if n == Nat.pow 10 count then
      ⟨Text.decimalDigits (n / 10), point + 1⟩
    else
      ⟨Text.decimalDigits n, point⟩

/- Digits and a point, which stays only before digits. -/
def pointed
    (keepPoint : Bool)
    (whole fraction : List Char) : List Char :=
  if fraction.isEmpty && !keepPoint then
    whole
  else
    whole ++ '.' :: fraction

/- So many places after the point. -/
def places
    (keepPoint : Bool)
    (count : Nat)
    (r : Double.Ratio) : List Char :=
  let n := roundHalfEven (r.num * Nat.pow 10 count) r.den
  let ds := Text.paddedDecimal (count + 1) n
  let cut := ds.length - count
  pointed keepPoint (ds.take cut) (ds.drop cut)

/- One digit before the point, and an exponent. -/
def mantissaForm
    (keepPoint : Bool)
    (d : Decimal) : List Char :=
  pointed keepPoint (d.digits.take 1) (d.digits.drop 1) ++
    'e' :: exponentText (d.point - 1)

/- The digits around the point, with zeros as needed. -/
def plainForm
    (keepPoint : Bool)
    (d : Decimal) : List Char :=
  match d.point with
  | .ofNat 0 => pointed keepPoint ['0'] d.digits
  | .ofNat n =>
      let whole := d.digits.take n
      pointed keepPoint
        (whole ++ List.replicate (n - whole.length) '0')
        (d.digits.drop n)
  | .negSucc n =>
      pointed keepPoint ['0']
        (List.replicate (n + 1) '0' ++ d.digits)

/- The shorter of the two forms. -/
def general
    (keepZeros : Bool)
    (count : Nat)
    (r : Double.Ratio) : List Char :=
  let count := max count 1
  let full := significant count r
  let kept :=
    (full.digits.reverse.dropWhile (· == '0')).reverse
  let digits :=
    if keepZeros then
      full.digits
    else if kept.isEmpty then
      ['0']
    else
      kept
  let d : Decimal := ⟨digits, full.point⟩
  if d.point ≤ -4 || Int.ofNat count < d.point then
    d.mantissaForm keepZeros
  else
    d.plainForm keepZeros

end Decimal

------------------------------------------------------------
-- Doubles
------------------------------------------------------------

namespace Double

/- The forms in which digits can be asked for. -/
inductive Style where
  | fixed
  | exponent
  | general
  deriving DecidableEq, Repr

/-
  A double with so many digits in a form; `keep` keeps the
  point and the zeros that say nothing.
-/
def withDigits
    (style : Style)
    (keep : Bool)
    (count : Nat) : Double → List Char
  | .finite negative m e =>
      let r := sizeOfFinite m e
      signed negative
        (match style with
          | .fixed => Decimal.places keep count r
          | .exponent =>
              (Decimal.significant (count + 1) r).mantissaForm
                keep
          | .general => Decimal.general keep count r)
  | .infinite negative => signed negative ['i', 'n', 'f']
  | .notNumber => ['n', 'a', 'n']

end Double

end LocalCert
