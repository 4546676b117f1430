import LocalCert.Calendar

/-
  The reading of moments.  A date has a month and a day, or
  a week and a weekday.  Any character may part it from the
  time, of which only the hours are needed, and after the
  time an offset may follow.

  Key definitions include:
    * `Moment.dateLength`
    * `Moment.date?`
    * `Moment.time?`
    * `Moment.ofText?`
-/

------------------------------------------------------------
-- Dates
------------------------------------------------------------

namespace LocalCert

namespace Moment

/- The number that so many digits denote, and what follows. -/
def digits?
    (count : Nat)
    (cs : List Char) : Option (Nat × List Char) :=
  let ds := cs.take count
  if ds.length == count && ds.all Text.isDigit then
    some (Text.ofDecimalDigits ds, cs.drop count)
  else
    none

/- The first day of a year, counted from 1970. -/
def firstDay
    (year : Int) : Int :=
  let y := year - 1
  365 * y + y / 4 - y / 100 + y / 400 - 719162

/- The weekday of a day, where Monday is zero. -/
def weekday
    (day : Int) : Int :=
  (day + 3) % 7

/- Whether a year has a week with the number 53. -/
def isLong
    (year : Int) : Bool :=
  let w := weekday (firstDay year)
  w == 3 || (w == 2 && isLeap year)

/- The Monday of the first week that is mostly in a year. -/
def firstMonday
    (year : Int) : Int :=
  let first := firstDay year
  let w := weekday first
  if 3 < w then first - w + 7 else first - w

/- The date of a day of a week. -/
def ofWeek?
    (year : Int)
    (week day : Nat) : Option (Int × Nat × Nat) :=
  if week == 0 || 53 < week ||
      (week == 53 && !isLong year) ||
      day == 0 || 7 < day then
    none
  else
    some (dateOfDay
      (firstMonday year +
        Int.ofNat ((week - 1) * 7 + (day - 1))))

/- Pass over a hyphen, if hyphens are in use. -/
def passHyphen?
    (hyphens : Bool)
    (cs : List Char) : Option (List Char) :=
  if !hyphens then
    some cs
  else
    match cs with
    | '-' :: rest => some rest
    | _ => none

/- The date at the front of a text. -/
def date?
    (length : Nat)
    (cs : List Char) : Option (Int × Nat × Nat) := do
  let (year, rest) ← digits? 4 cs
  let hyphens := rest.head? == some '-'
  let rest := if hyphens then rest.drop 1 else rest
  if rest.head? == some 'W' then
    let (week, rest) ← digits? 2 (rest.drop 1)
    if cs.length - rest.length < length then
      let (day, _) ← digits? 1 (← passHyphen? hyphens rest)
      ofWeek? year week day
    else
      ofWeek? year week 1
  else
    let (month, rest) ← digits? 2 rest
    let (day, _) ← digits? 2 (← passHyphen? hyphens rest)
    return (Int.ofNat year, month, day)

/- Whether a digit stands at a place. -/
def isDigitAt
    (cs : List Char)
    (i : Nat) : Bool :=
  (cs[i]?).any Text.isDigit

/- The length of a date that has no hyphens. -/
def bareDateLength
    (cs : List Char) : Nat :=
  if cs[4]? != some 'W' then
    8
  else
    let run := ((cs.drop 7).takeWhile Text.isDigit).length
    if run < 2 then
      7 + run
    else if run % 2 == 1 then
      7
    else
      8

/- The length of the date in front of a time. -/
def dateLength
    (cs : List Char) : Nat :=
  if cs.length == 7 then
    7
  else if cs[4]? != some '-' then
    bareDateLength cs
  else if cs[5]? != some 'W' then
    10
  else if cs[8]? == some '-' && !isDigitAt cs 10 then
    10
  else
    8

------------------------------------------------------------
-- Times
------------------------------------------------------------

/- A time of the day. -/
structure Clock where
  hour : Nat := 0
  minute : Nat := 0
  second : Nat := 0
  micro : Nat := 0
  deriving DecidableEq, Repr

/- What may come after a part of a time. -/
inductive Following where
  | done (isEnd : Bool)
  | part (rest : List Char)
  | fraction (rest : List Char)
  | wrong
  deriving DecidableEq, Repr

/-
  What follows the hours, the minutes or the seconds.  A
  single ASCII character at the end is not looked at, but it
  is not the end of the text.
-/
def following
    (colons : Bool)
    (rest : List Char) : Following :=
  match rest with
  | [] => .done true
  | [c] =>
      if c.toNat < 128 then .done (c == '\x00') else .wrong
  | c :: more =>
      if colons && c == ':' then
        .part more
      else if c == '.' || c == ',' then
        .fraction more
      else if colons then
        .wrong
      else
        .part rest

/-
  The microseconds of a fraction, of which no more than six
  digits count, and whether the text ends with it.
-/
def fraction?
    (cs : List Char) : Option (Nat × Bool) := do
  let count := min 6 cs.length
  let (n, rest) ← digits? count cs
  let next := (rest.dropWhile Text.isDigit).head?
  return (n * Nat.pow 10 (6 - count),
    next.isNone || next == some '\x00')

/-
  A time with the fraction that follows its last part, if
  there is one; after the seconds a part is a fraction too.
-/
def withFraction?
    (clock : Clock) :
    Following → Option (Clock × Bool)
  | .done isEnd => some (clock, isEnd)
  | .fraction rest | .part rest =>
      (fraction? rest).map
        (fun f => ({ clock with micro := f.1 }, f.2))
  | .wrong => none

/-
  The time in a text, and whether the text ends with it.
  Minutes and seconds may be left out.
-/
def clock?
    (cs : List Char) : Option (Clock × Bool) := do
  let (hour, rest) ← digits? 2 cs
  let colons := rest.head? == some ':'
  match following colons rest with
  | .part rest =>
      let (minute, rest) ← digits? 2 rest
      match following colons rest with
      | .part rest =>
          let (second, rest) ← digits? 2 rest
          withFraction? { hour, minute, second }
            (following colons rest)
      | next => withFraction? { hour, minute } next
  | next => withFraction? { hour } next

/- Whether a character begins an offset. -/
def beginsOffset
    (c : Char) : Bool :=
  c == '+' || c == '-' || c == 'Z'

/-
  The offset in a text that begins with its sign.  One that
  is shorter than a second counts for nothing.
-/
def offset? : List Char → Option Int
  | ['Z'] => some 0
  | 'Z' :: c :: _ => if c == '\x00' then some 0 else none
  | sign :: cs => do
      let (clock, isEnd) ← clock? cs
      let seconds :=
        clock.hour * 3600 + clock.minute * 60 + clock.second
      let size :=
        if seconds == 0 then 0
        else seconds * 1000000 + clock.micro
      if isEnd then
        return if sign == '-' then -Int.ofNat size
          else Int.ofNat size
      else
        none
  | [] => none

/- A time and its offset, if there is one. -/
def time?
    (cs : List Char) : Option (Clock × Option Int) := do
  let isTime := fun c => !beginsOffset c
  let (clock, isEnd) ← clock? (cs.takeWhile isTime)
  match cs.dropWhile isTime with
  | [] => if isEnd then return (clock, none) else none
  | cs => return (clock, some (← offset? cs))

------------------------------------------------------------
-- Moments
------------------------------------------------------------

/- The time after a date and a character, if there is one. -/
def timeAfter? :
    List Char → Option (Clock × Option Int)
  | [] => some ({}, none)
  | _ :: cs => time? cs

/- The moment that a text denotes, if it is valid. -/
def ofText?
    (s : String) : Option Moment := do
  let cs := s.toList
  let length := dateLength cs
  let (year, month, day) ← date? length cs
  let (clock, offset) ← timeAfter? (cs.drop length)
  let m : Moment :=
    { year, month, day, offset
      hour := clock.hour
      minute := clock.minute
      second := clock.second
      micro := clock.micro }
  if m.isValid then
    return m
  else
    none

end Moment

end LocalCert
