import LocalCert.Number.Double
import LocalCert.Text.Blank
import LocalCert.Text.Digit

/-
  Reading a double from text.  Blanks around the number are
  skipped, digits of any script count, single underscores
  may stand between digits, and the words for the infinities
  and for no number are read in any case.

  Key definitions include:
    * `Double.Unsigned`
    * `Double.ofText?`
-/

------------------------------------------------------------
-- Characters
------------------------------------------------------------

namespace LocalCert

namespace Double

/- The plain character a number text means by a character. -/
def plain
    (c : Char) : Char :=
  if c.toNat < 128 then
    c
  else if Text.isBlank c then
    ' '
  else
    match Text.decimalValue c with
    | some n => Char.ofNat (48 + n)
    | none => c

/-
  Whether every underscore stands between two digits; the
  flag tells whether a digit stands before the text.
-/
def underscoresFit
    (afterDigit : Bool) : List Char → Bool
  | [] => true
  | ['_'] => false
  | '_' :: c :: cs =>
      afterDigit && Text.isDigit c && underscoresFit true cs
  | c :: cs => underscoresFit (Text.isDigit c) cs

------------------------------------------------------------
-- Unsigned Numbers
------------------------------------------------------------

/-
  A number text without its sign: digits before and after
  the point, and the power of ten.
-/
structure Unsigned where
  whole : List Char
  fraction : List Char
  exponent : Int
  deriving DecidableEq, Repr

/- The signed digits after an exponent mark. -/
def exponentOfText?
    (cs : List Char) : Option Int :=
  let (negative, ds) :=
    match cs with
    | '-' :: r => (true, r)
    | '+' :: r => (false, r)
    | r => (false, r)
  if ds.isEmpty || !ds.all Text.isDigit then
    none
  else
    let n := Int.ofNat (Text.ofDecimalDigits ds)
    some (if negative then -n else n)

/- The parts of a number text without sign. -/
def Unsigned.ofText?
    (cs : List Char) : Option Unsigned :=
  let whole := cs.takeWhile Text.isDigit
  let rest := cs.dropWhile Text.isDigit
  let (fraction, rest) :=
    match rest with
    | '.' :: r =>
        (r.takeWhile Text.isDigit, r.dropWhile Text.isDigit)
    | r => ([], r)
  if whole.isEmpty && fraction.isEmpty then
    none
  else
    match rest with
    | [] => some ⟨whole, fraction, 0⟩
    | c :: r =>
        if c == 'e' || c == 'E' then
          (exponentOfText? r).map
            (fun e => ⟨whole, fraction, e⟩)
        else
          none

/-
  The double nearest to an unsigned number.  Powers of ten
  far outside the range of doubles are cut down first.
-/
def Unsigned.toDouble
    (negative : Bool)
    (u : Unsigned) : Double :=
  let digits :=
    (u.whole ++ u.fraction).dropWhile (· == '0')
  let n := Text.ofDecimalDigits digits
  let power := u.exponent - Int.ofNat u.fraction.length
  let top := Int.ofNat digits.length + power
  if n == 0 || top < -400 then
    .finite negative 0 minExponent
  else if 400 < top then
    .infinite negative
  else
    match power with
    | .ofNat p => ofRatio negative ⟨n * Nat.pow 10 p, 1⟩
    | .negSucc p => ofRatio negative ⟨n, Nat.pow 10 (p + 1)⟩

------------------------------------------------------------
-- Numbers
------------------------------------------------------------

/- A number text without its sign. -/
def unsignedOfText?
    (negative : Bool)
    (cs : List Char) : Option Double :=
  let word := String.ofList (cs.map Char.toLower)
  if word == "inf" || word == "infinity" then
    some (.infinite negative)
  else if word == "nan" then
    some .notNumber
  else
    (Unsigned.ofText? cs).map (Unsigned.toDouble negative)

/- Read a double. -/
def ofText?
    (s : String) : Option Double :=
  let cs :=
    Text.trimBy Text.isAsciiBlank (s.toList.map plain)
  if !underscoresFit false cs then
    none
  else
    match cs.filter (· != '_') with
    | '-' :: r => unsignedOfText? true r
    | '+' :: r => unsignedOfText? false r
    | r => unsignedOfText? false r

end Double

end LocalCert
