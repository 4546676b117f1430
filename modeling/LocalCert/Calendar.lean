import LocalCert.Number.Double
import LocalCert.Text.Digit
import LocalCert.Text.Newline

/-
  Moments of the proleptic Gregorian calendar: validity,
  text, and the moment that a number of seconds since 1970
  means.

  Key definitions include:
    * `Moment`
    * `Moment.isInCalendar`
    * `Moment.isValid`
    * `Moment.notAfter`
    * `Moment.text`
    * `Moment.RangeError`
    * `Moment.ofSeconds`
-/

------------------------------------------------------------
-- Moments
------------------------------------------------------------

namespace LocalCert

/-
  A moment, to the microsecond, at some offset from
  universal time, which may be unknown.  Offsets are in
  microseconds too.
-/
structure Moment where
  year : Int
  month : Nat
  day : Nat
  hour : Nat
  minute : Nat
  second : Nat
  micro : Nat := 0
  offset : Option Int := some 0
  deriving DecidableEq, Repr, Inhabited

namespace Moment

/- Whether a year has a leap day. -/
def isLeap
    (year : Int) : Bool :=
  year % 4 == 0 && (year % 100 != 0 || year % 400 == 0)

/- The number of days of a month. -/
def daysInMonth
    (year : Int)
    (month : Nat) : Nat :=
  if month == 2 then
    if isLeap year then 29 else 28
  else if [4, 6, 9, 11].contains month then
    30
  else
    31

/- Whether the calendar and the clock know a moment. -/
def isInCalendar
    (m : Moment) : Bool :=
  1 ≤ m.month && m.month ≤ 12 &&
    1 ≤ m.day && m.day ≤ daysInMonth m.year m.month &&
    m.hour < 24 && m.minute < 60 && m.second < 60 &&
    m.micro < 1000000

/- The microseconds of a day. -/
def dayLength : Nat := 86400000000

/- Whether an offset is shorter than a day. -/
def fitsDay
    (offset : Option Int) : Bool :=
  offset.all (fun o => o.natAbs < dayLength)

/- Whether all parts of a moment are in their ranges. -/
def isValid
    (m : Moment) : Bool :=
  1 ≤ m.year && m.year ≤ 9999 && m.isInCalendar &&
    fitsDay m.offset

/-
  A number by which moments of one offset are in order, if
  the calendar knows them.
-/
def rank
    (m : Moment) : Int :=
  let day :=
    (m.year * 12 + Int.ofNat m.month) * 31 + Int.ofNat m.day
  let second :=
    (m.hour * 60 + m.minute) * 60 + m.second
  day * Int.ofNat dayLength +
    Int.ofNat (second * 1000000 + m.micro)

/- Whether a moment does not come after another one. -/
def notAfter
    (m n : Moment) : Bool :=
  m.rank ≤ n.rank

------------------------------------------------------------
-- Text
------------------------------------------------------------

/- A number with two digits. -/
def two
    (n : Nat) : List Char :=
  Text.paddedDecimal 2 n

/- The microseconds as a fraction, if there are any. -/
def fractionText
    (micro : Nat) : List Char :=
  if micro == 0 then []
  else '.' :: Text.paddedDecimal 6 micro

/-
  An offset: a sign, hours and minutes, and seconds only if
  they say anything.
-/
def offsetText
    (offset : Int) : List Char :=
  let size := offset.natAbs
  let seconds := size / 1000000
  let micro := size % 1000000
  let rest :=
    if seconds % 60 == 0 && micro == 0 then
      []
    else
      ':' :: two (seconds % 60) ++ fractionText micro
  (if offset < 0 then '-' else '+') ::
    (two (seconds / 3600) ++
      ':' :: two (seconds / 60 % 60) ++ rest)

/-
  A moment as a text: date and time with a letter between
  them, the microseconds if there are any, and the offset if
  it is known.
-/
def text
    (m : Moment) : String :=
  let offset :=
    match m.offset with
    | none => []
    | some o => offsetText o
  String.ofList
    (Text.paddedDecimal 4 m.year.toNat ++
      '-' :: two m.month ++ '-' :: two m.day ++
      'T' :: two m.hour ++ ':' :: two m.minute ++
      ':' :: two m.second ++ fractionText m.micro ++
      offset)

------------------------------------------------------------
-- Seconds Since 1970
------------------------------------------------------------

/- Why a number of seconds means no moment. -/
inductive RangeError where
  | notNumber
  | beyondClock
  | beyondYears
  | year (y : Int)
  deriving DecidableEq, Repr

/- The message for such a number. -/
def RangeError.message : RangeError → String
  | .notNumber => "Invalid value NaN (not a number)"
  | .beyondClock =>
      "timestamp out of range for platform time_t"
  | .beyondYears =>
      "[Errno 75] Value too large for defined data type"
  | .year y =>
      "year " ++ Text.intText y ++ " is out of range"

/- The date of a day counted from the first of 1970. -/
def dateOfDay
    (day : Int) : Int × Nat × Nat :=
  let shifted := day + 719468
  let era := shifted / 146097
  let d := (shifted % 146097).toNat
  let y := (d - d / 1460 + d / 36524 - d / 146096) / 365
  let dayOfYear := d - (365 * y + y / 4 - y / 100)
  let m := (5 * dayOfYear + 2) / 153
  let dayOfMonth := dayOfYear - (153 * m + 2) / 5 + 1
  let month := if m < 10 then m + 3 else m - 9
  let year :=
    Int.ofNat y + era * 400 + (if month ≤ 2 then 1 else 0)
  (year, month, dayOfMonth)

/-
  Whole seconds and microseconds of a finite double, the
  microseconds rounded to even.  The fraction is multiplied
  as a double.
-/
def splitSeconds
    (negative : Bool)
    (mantissa : Nat)
    (exponent : Int) : Int × Nat :=
  let r := Double.sizeOfFinite mantissa exponent
  let seconds := Int.ofNat (r.num / r.den)
  let scaled :=
    Double.ofRatio false
      ⟨r.num % r.den * 1000000, r.den⟩
  let micros :=
    match scaled with
    | .finite _ m e =>
        let s := Double.sizeOfFinite m e
        roundHalfEven s.num s.den
    | _ => 0
  let total := seconds * 1000000 + Int.ofNat micros
  let signed := if negative then -total else total
  (signed / 1000000, (signed % 1000000).toNat)

/-
  The moment that a number of seconds since 1970 means.  The
  clock counts in 64 bits; the double next above what it can
  count passes for its end, and is in no year that has a
  number.
-/
def ofSeconds
    (x : Double) : Except RangeError Moment :=
  match x with
  | .notNumber => .error .notNumber
  | .infinite _ => .error .beyondClock
  | .finite negative m e =>
      let (seconds, micro) := splitSeconds negative m e
      let bound := Int.ofNat (Nat.pow 2 63)
      if seconds < -bound || bound < seconds then
        .error .beyondClock
      else
        let (year, month, day) := dateOfDay (seconds / 86400)
        let rest := (seconds % 86400).toNat
        let sinceBase := year - 1900
        let bound := Int.ofNat (Nat.pow 2 31)
        if sinceBase < -bound || bound ≤ sinceBase then
          .error .beyondYears
        else if year < 1 || 9999 < year then
          .error (.year (Int.bmod year (Nat.pow 2 32)))
        else
          .ok
            { year, month, day, micro,
              hour := rest / 3600,
              minute := rest / 60 % 60,
              second := rest % 60 }

end Moment

end LocalCert
