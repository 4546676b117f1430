/-
  Whole numbers as lists of bytes, the most significant byte
  first.

  Key definitions include:
    * `BigEndian.toNat`
    * `BigEndian.ofNat`
    * `BigEndian.minimal`
-/

------------------------------------------------------------
-- Numbers And Bytes
------------------------------------------------------------

namespace LocalCert

/- A list of bytes. -/
abbrev Bytes : Type :=
  List UInt8

namespace BigEndian

/- The number that bytes denote. -/
def toNat
    (bytes : Bytes) : Nat :=
  bytes.foldl (fun n b => 256 * n + b.toNat) 0

/- The last bytes of a number. -/
def ofNat
    (width : Nat)
    (n : Nat) : Bytes :=
  match width with
  | 0 => []
  | w + 1 => ofNat w (n / 256) ++ [UInt8.ofNat (n % 256)]

/- The number of bytes that a number needs. -/
def width
    (n : Nat) : Nat :=
  if n == 0 then 0 else n.log2 / 8 + 1

/- A number with as few bytes as it needs. -/
def minimal
    (n : Nat) : Bytes :=
  ofNat (width n) n

/- The number that the reversed bytes denote. -/
def toNatLittle
    (bytes : Bytes) : Nat :=
  toNat bytes.reverse

/- The reversed last bytes of a number. -/
def ofNatLittle
    (width : Nat)
    (n : Nat) : Bytes :=
  (ofNat width n).reverse

end BigEndian

end LocalCert
