import LocalCert.Text.Digit
import LocalCert.Text.Newline

/-
  The text of a serial number: pairs of upper case
  hexadecimal digits with colons between them.

  Key definitions include:
    * `Serial.digits`
    * `Serial.pairs`
    * `Serial.text`
    * `Serial.ofText?`
-/

------------------------------------------------------------
-- Serial Numbers
------------------------------------------------------------

namespace LocalCert

namespace Serial

/- The digits of a number, with a sign if it is negative. -/
def digits
    (n : Int) : List Char :=
  let ds := (Nat.toDigits 16 n.natAbs).map Char.toUpper
  if n < 0 then '-' :: ds else ds

/- An even number of characters, by a zero in front. -/
def padded
    (cs : List Char) : List Char :=
  if cs.length % 2 == 1 then '0' :: cs else cs

/- The characters in pairs. -/
def pairs : List Char → List (List Char)
  | [] => []
  | [c] => [[c]]
  | c :: d :: cs => [c, d] :: pairs cs

/- The pairs of the digits with colons between them. -/
def text
    (n : Int) : String :=
  Text.joinWith ":"
    ((pairs (padded (digits n))).map String.ofList)

------------------------------------------------------------
-- Reading
------------------------------------------------------------

/- The number that hexadecimal digits denote. -/
def ofDigits?
    (ds : List Char) : Option Nat :=
  (ds.mapM Text.hexValue).map
    (fun vs => vs.foldl (fun n v => 16 * n + v) 0)

/- The number of a serial text that has no sign. -/
def ofText?
    (s : String) : Option Nat :=
  ofDigits? (s.toList.filter (· != ':'))

end Serial

end LocalCert
