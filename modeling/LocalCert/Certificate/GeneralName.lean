import LocalCert.Certificate.Name
import LocalCert.Encoding.Der.Fields
import LocalCert.Net.Address

/-
  The general names of a subject: host names, addresses and
  networks, and other kinds of names, of which only the form
  is checked.

  Key definitions include:
    * `Certificate.GeneralName`
    * `Certificate.RawGeneralName`
    * `Certificate.rawGeneralNames?`
    * `Certificate.RawGeneralName.decode`
-/

------------------------------------------------------------
-- General Names
------------------------------------------------------------

namespace LocalCert

namespace Certificate

open Inspection

/- A general name. -/
inductive GeneralName where
  | dns (name : String)
  | address (a : Net.Address)
  | network (a : Net.Address) (bits : Nat)
  | other
  deriving DecidableEq, Repr

namespace GeneralName

/- The text of a host name. -/
def dnsText? : GeneralName → Option String
  | .dns name => some ("DNS:" ++ name)
  | _ => none

/- The text of an address or a network. -/
def addressText? : GeneralName → Option String
  | .address a => some ("IP:" ++ a.text)
  | .network a bits =>
      some ("IP:" ++ a.text ++ "/" ++ toString bits)
  | _ => none

end GeneralName

------------------------------------------------------------
-- Addresses And Networks
------------------------------------------------------------

/- The number of one bits in front of zero bits only. -/
def maskBits?
    (mask : Bytes) : Option Nat :=
  let width := 8 * mask.length
  let n := BigEndian.toNat mask
  (List.range (width + 1)).find?
    (fun k => n == Nat.pow 2 width - Nat.pow 2 (width - k))

/- The network of an address and a mask without host bits. -/
def network?
    (bytes : Bytes) : Option GeneralName := do
  let half := bytes.length / 2
  let base := bytes.take half
  let bits ← maskBits? (bytes.drop half)
  let address ← Net.Address.ofBytes? base
  let hosts := Nat.pow 2 (8 * half - bits)
  if BigEndian.toNat base % hosts == 0 then
    return .network address bits
  else
    none

/- The address or the network that bytes stand for. -/
def addressName
    (bytes : Bytes) : Except Defect GeneralName :=
  let found :=
    if bytes.length == 8 || bytes.length == 32 then
      network? bytes
    else
      (Net.Address.ofBytes? bytes).map .address
  match found with
  | some name => .ok name
  | none => .error .malformed

------------------------------------------------------------
-- Forms
------------------------------------------------------------

/- A name of another type: an identifier and any value. -/
def otherName?
    (e : Der.Element) : Option Unit :=
  e.fields? do
    let _ ← Der.Fields.need Der.Element.identifier?
    let value ← Der.Fields.explicit 0 some
    if value.isSome then return () else failure

/- A name that stands inside a tag of its own. -/
def directoryName?
    (e : Der.Element) : Option RawName := do
  rawName? (← Der.single? e.content)

/- The numbers of names that are made up of parts. -/
def composite : List Nat := [0, 3, 4, 5]

/- Whether a tag can begin a general name. -/
def GeneralName.begins
    (t : Der.Tag) : Bool :=
  t.family == 2 && t.number ≤ 8 &&
    t.constructed == composite.contains t.number

/- Whether an element has the form of a general name. -/
def GeneralName.hasForm
    (e : Der.Element) : Bool :=
  GeneralName.begins e.tag &&
    match e.tag.number with
    | 0 => (otherName? (e.as Der.Tag.sequence)).isSome
    | 1 | 2 | 6 => (Der.plainText? e.content).isSome
    | 4 => (directoryName? e).isSome
    | 8 => (e.as Der.Tag.identifier).identifier?.isSome
    | _ => true

/- An element that has the form of a general name. -/
structure RawGeneralName where
  element : Der.Element
  deriving DecidableEq, Repr

/- The general name in an element, not read yet. -/
def rawGeneralName?
    (e : Der.Element) : Option RawGeneralName :=
  if GeneralName.hasForm e then some ⟨e⟩ else none

/- The general names in a sequence, not read yet. -/
def rawGeneralNames?
    (e : Der.Element) : Option (List RawGeneralName) :=
  e.each? rawGeneralName?

------------------------------------------------------------
-- Reading
------------------------------------------------------------

/- The general name in an element of its form. -/
def RawGeneralName.decode
    (r : RawGeneralName) : Except Defect GeneralName :=
  let e := r.element
  match e.tag.number with
  | 2 =>
      match Der.plainText? e.content with
      | some cs => .ok (.dns (String.ofList cs))
      | none => .error .malformed
  | 3 => .error .unsupportedName
  | 4 =>
      match directoryName? e with
      | some raw => raw.decode.map (fun _ => .other)
      | none => .error .malformed
  | 5 => .error .unsupportedName
  | 7 => addressName e.content
  | _ => .ok .other

/- The general names of elements of their form. -/
def decodeNames
    (rs : List RawGeneralName) :
    Except Defect (List GeneralName) :=
  rs.mapM RawGeneralName.decode

end Certificate

end LocalCert
