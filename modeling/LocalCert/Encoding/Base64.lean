import LocalCert.Encoding.BigEndian

/-
  Base sixty-four: four characters stand for three bytes.
  The last group is filled up with equals signs, and the
  bits that it does not use are zero.

  Key definitions include:
    * `Base64.sextet?`
    * `Base64.decode?`
-/

------------------------------------------------------------
-- Decoding
------------------------------------------------------------

namespace LocalCert

namespace Base64

/- The six bits that a character stands for. -/
def sextet?
    (c : Char) : Option Nat :=
  let n := c.toNat
  if 65 ≤ n && n ≤ 90 then
    some (n - 65)
  else if 97 ≤ n && n ≤ 122 then
    some (n - 71)
  else if 48 ≤ n && n ≤ 57 then
    some (n + 4)
  else if c == '+' then
    some 62
  else if c == '/' then
    some 63
  else
    none

/- One byte from a group with two equals signs. -/
def lastOne?
    (a b : Char) : Option Bytes := do
  let a ← sextet? a
  let b ← sextet? b
  if b % 16 == 0 then
    return [UInt8.ofNat (a * 4 + b / 16)]
  else
    none

/- Two bytes from a group with one equals sign. -/
def lastTwo?
    (a b c : Char) : Option Bytes := do
  let a ← sextet? a
  let b ← sextet? b
  let c ← sextet? c
  if c % 4 == 0 then
    return [UInt8.ofNat (a * 4 + b / 16),
      UInt8.ofNat (b % 16 * 16 + c / 4)]
  else
    none

/- Three bytes from a full group. -/
def full?
    (a b c d : Char) : Option Bytes := do
  let a ← sextet? a
  let b ← sextet? b
  let c ← sextet? c
  let d ← sextet? d
  return [UInt8.ofNat (a * 4 + b / 16),
    UInt8.ofNat (b % 16 * 16 + c / 4),
    UInt8.ofNat (c % 4 * 64 + d)]

/- Decode a text in base sixty-four. -/
def decode? : List Char → Option Bytes
  | [] => some []
  | [a, b, '=', '='] => lastOne? a b
  | [a, b, c, '='] => lastTwo? a b c
  | a :: b :: c :: d :: cs =>
      match full? a b c d, decode? cs with
      | some first, some rest => some (first ++ rest)
      | _, _ => none
  | _ => none

end Base64

end LocalCert
