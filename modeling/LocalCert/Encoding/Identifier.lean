import LocalCert.Encoding.BigEndian

/-
  Object identifiers, which name algorithms, curves and
  parts of certificates by lists of numbers.

  Key definitions include:
    * `Identifier.groups`
    * `Identifier.ofArcs`
-/

------------------------------------------------------------
-- Identifiers As Bytes
------------------------------------------------------------

namespace LocalCert

namespace Identifier

/-
  The groups of seven bits that stand before the last one;
  each of them is marked.
-/
def markedGroups
    (fuel : Nat)
    (n : Nat) : Bytes :=
  match fuel with
  | 0 => []
  | fuel + 1 =>
      if n == 0 then
        []
      else
        markedGroups fuel (n / 128) ++
          [UInt8.ofNat (128 + n % 128)]

/- A number in groups of seven bits. -/
def groups
    (n : Nat) : Bytes :=
  markedGroups n.log2 (n / 128) ++ [UInt8.ofNat (n % 128)]

/-
  The bytes of an identifier; its first two numbers share a
  group.
-/
def ofArcs : List Nat → Bytes
  | a :: b :: rest =>
      ((40 * a + b) :: rest).flatMap groups
  | _ => []

/- The identifiers that begin alike and end in a number. -/
def family
    (base : List Nat)
    (ends : List Nat) : List Bytes :=
  ends.map (fun n => ofArcs (base ++ [n]))

end Identifier

end LocalCert
