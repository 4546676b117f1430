import LocalCert.Text.Digit
import LocalCert.Text.Newline

/-
  IPv4 addresses: four octets, in decimal with dots between
  them.

  Key definitions include:
    * `Net.Ipv4`
    * `Net.Ipv4.ofChars?`
    * `Net.Ipv4.text`
-/

------------------------------------------------------------
-- IPv4
------------------------------------------------------------

namespace LocalCert

namespace Net

/- The four octets of an IPv4 address. -/
structure Ipv4 where
  octets : Vector UInt8 4
  deriving DecidableEq, Repr

namespace Ipv4

/- The address of four octets. -/
def ofOctets
    (a b c d : UInt8) : Ipv4 :=
  ⟨#v[a, b, c, d]⟩

/-
  An octet: one to three decimal digits without a leading
  zero, at most 255.
-/
def octet?
    (ds : List Char) : Option UInt8 :=
  let n := Text.ofDecimalDigits ds
  if ds.isEmpty || 3 < ds.length || !ds.all Text.isDigit then
    none
  else if ds.head? == some '0' && 1 < ds.length then
    none
  else if 255 < n then
    none
  else
    some (UInt8.ofNat n)

/- Read the four octets between the dots. -/
def ofChars?
    (cs : List Char) : Option Ipv4 :=
  match Text.splitAll '.' cs with
  | [a, b, c, d] =>
      match octet? a, octet? b, octet? c, octet? d with
      | some a, some b, some c, some d =>
          some (ofOctets a b c d)
      | _, _, _, _ => none
  | _ => none

/- The octets in decimal with dots between them. -/
def text
    (a : Ipv4) : String :=
  Text.joinWith "."
    (a.octets.toList.map
      (fun o =>
        String.ofList (Text.decimalDigits o.toNat)))

/- The address as two groups of sixteen bits. -/
def groups
    (a : Ipv4) : List UInt16 :=
  let o := fun (i : Fin 4) => (a.octets[i]).toNat
  [UInt16.ofNat (o 0 * 256 + o 1),
    UInt16.ofNat (o 2 * 256 + o 3)]

end Ipv4

end Net

end LocalCert
