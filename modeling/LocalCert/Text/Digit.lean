/-
  Digits: the decimal digits of every script of Unicode 14,
  and the hexadecimal digits of ASCII.

  Key definitions include:
    * `Text.decimalZeros`
    * `Text.decimalValue`
    * `Text.hexDigit`
    * `Text.hexValue`
-/

------------------------------------------------------------
-- Decimal Digits
------------------------------------------------------------

namespace LocalCert

namespace Text

/-
  The digits zero of all scripts; each is followed by the
  digits one to nine of its script.
-/
def decimalZeros : List Nat :=
  [0x30, 0x660, 0x6F0, 0x7C0, 0x966, 0x9E6, 0xA66, 0xAE6,
    0xB66, 0xBE6, 0xC66, 0xCE6, 0xD66, 0xDE6, 0xE50, 0xED0,
    0xF20, 0x1040, 0x1090, 0x17E0, 0x1810, 0x1946, 0x19D0,
    0x1A80, 0x1A90, 0x1B50, 0x1BB0, 0x1C40, 0x1C50, 0xA620,
    0xA8D0, 0xA900, 0xA9D0, 0xA9F0, 0xAA50, 0xABF0, 0xFF10,
    0x104A0, 0x10D30, 0x11066, 0x110F0, 0x11136, 0x111D0,
    0x112F0, 0x11450, 0x114D0, 0x11650, 0x116C0, 0x11730,
    0x118E0, 0x11950, 0x11C50, 0x11D50, 0x11DA0, 0x16A60,
    0x16AC0, 0x16B50, 0x1D7CE, 0x1D7D8, 0x1D7E2, 0x1D7EC,
    0x1D7F6, 0x1E140, 0x1E2F0, 0x1E950, 0x1FBF0]

/- The value of a decimal digit of any script. -/
def decimalValue
    (c : Char) : Option Nat :=
  if c.toNat < 128 then
    if 48 ≤ c.toNat && c.toNat ≤ 57 then
      some (c.toNat - 48)
    else
      none
  else
    (decimalZeros.find?
      (fun z => z ≤ c.toNat && c.toNat < z + 10)).map
        (fun z => c.toNat - z)

/- A decimal digit of ASCII. -/
def isDigit
    (c : Char) : Bool :=
  48 ≤ c.toNat && c.toNat ≤ 57

/- The decimal digits of a number, as characters. -/
def decimalDigits
    (n : Nat) : List Char :=
  Nat.toDigits 10 n

/- A number written with at least so many digits. -/
def paddedDecimal
    (width : Nat)
    (n : Nat) : List Char :=
  let ds := decimalDigits n
  List.replicate (width - ds.length) '0' ++ ds

/- The number that a list of ASCII digits denotes. -/
def ofDecimalDigits
    (ds : List Char) : Nat :=
  ds.foldl (fun n c => 10 * n + (c.toNat - 48)) 0

/- The decimal text of an integer. -/
def intText
    (i : Int) : String :=
  match i with
  | .ofNat n => String.ofList (decimalDigits n)
  | .negSucc n =>
      String.ofList ('-' :: decimalDigits (n + 1))

------------------------------------------------------------
-- Hexadecimal Digits
------------------------------------------------------------

/- The lower case digit of a value below sixteen. -/
def hexDigit
    (n : Nat) : Char :=
  Char.ofNat (if n < 10 then 48 + n else 87 + n)

/- The upper case digit of a value below sixteen. -/
def upperHexDigit
    (n : Nat) : Char :=
  Char.ofNat (if n < 10 then 48 + n else 55 + n)

/- The value of a hexadecimal digit of either case. -/
def hexValue
    (c : Char) : Option Nat :=
  let n := c.toNat
  if 48 ≤ n && n ≤ 57 then
    some (n - 48)
  else if 97 ≤ n && n ≤ 102 then
    some (n - 87)
  else if 65 ≤ n && n ≤ 70 then
    some (n - 55)
  else
    none

/-
  The last digits of a number in base sixteen, most
  significant first.
-/
def hexDigits
    (width : Nat)
    (n : Nat) : List Char :=
  match width with
  | 0 => []
  | w + 1 => hexDigits w (n / 16) ++ [hexDigit (n % 16)]

end Text

end LocalCert
