import LocalCert.Net.Ipv6

/-
  IP addresses of both versions.  An IPv6 address may carry a
  zone.

  Key definitions include:
    * `Net.Address`
    * `Net.Address.ofText?`
    * `Net.Address.text`
    * `Net.Address.ofBytes?`
-/

------------------------------------------------------------
-- Addresses
------------------------------------------------------------

namespace LocalCert

namespace Net

/- An address of either version. -/
inductive Address where
  | four (a : Ipv4)
  | six (a : Ipv6) (zone : Option String)
  deriving DecidableEq, Repr

namespace Address

/-
  Read an IPv6 address with its zone: the text after a
  percent sign, neither empty nor with another one.
-/
def sixOfChars?
    (cs : List Char) : Option Address :=
  if cs.contains '/' then
    none
  else
    match Text.splitFirst? '%' cs with
    | none => (Ipv6.ofChars? cs).map (fun a => .six a none)
    | some (address, zone) =>
        if zone.isEmpty || zone.contains '%' then
          none
        else
          (Ipv6.ofChars? address).map
            (fun a => .six a (some (String.ofList zone)))

/- Read an address of either version. -/
def ofText?
    (s : String) : Option Address :=
  match Ipv4.ofChars? s.toList with
  | some a => some (.four a)
  | none => sixOfChars? s.toList

/- The canonical text of an address. -/
def text : Address → String
  | .four a => a.text
  | .six a none => a.text
  | .six a (some zone) => a.text ++ "%" ++ zone

/- The addresses that four or sixteen bytes stand for. -/
def ofBytes?
    (bytes : List UInt8) : Option Address :=
  match bytes with
  | [a, b, c, d] => some (.four (.ofOctets a b c d))
  | [a, b, c, d, e, f, g, h, i, j, k, l, m, n, o, p] =>
      let pair := fun (x y : UInt8) =>
        UInt16.ofNat (x.toNat * 256 + y.toNat)
      some (.six
        ⟨#v[pair a b, pair c d, pair e f, pair g h,
          pair i j, pair k l, pair m n, pair o p]⟩ none)
  | _ => none

end Address

end Net

end LocalCert
