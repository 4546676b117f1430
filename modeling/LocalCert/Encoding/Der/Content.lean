import LocalCert.Calendar
import LocalCert.Encoding.Der.Element

/-
  What the contents of DER elements denote: parts, numbers,
  truth values, bytes, identifiers and times.

  Key definitions include:
    * `Der.Element.as`
    * `Der.Element.items?`
    * `Der.Element.int?`
    * `Der.Element.bits?`
    * `Der.Element.identifier?`
    * `Der.Element.moment?`
-/

------------------------------------------------------------
-- Contents
------------------------------------------------------------

namespace LocalCert

namespace Der

namespace Element

/- The element with another tag in place of its own. -/
def as
    (e : Element)
    (tag : Tag) : Element :=
  { e with tag := tag }

/- The content of an element with the given tag. -/
def contentOf?
    (e : Element)
    (tag : Tag) : Option Bytes :=
  if e.tag == tag then some e.content else none

/- The parts of an element with the given tag. -/
def parts?
    (e : Element)
    (tag : Tag) : Option (List Element) := do
  let content ← e.contentOf? tag
  all? content

/- The items of a sequence. -/
def items?
    (e : Element) : Option (List Element) :=
  e.parts? Tag.sequence

/- Whether bytes come before others, or are the same. -/
def inOrder : Bytes → Bytes → Bool
  | [], _ => true
  | _ :: _, [] => false
  | a :: as, b :: bs =>
      a < b || (a == b && inOrder as bs)

/- Whether elements stand in the order of their bytes. -/
def ascending : List Element → Bool
  | [] => true
  | [_] => true
  | a :: b :: es =>
      inOrder a.whole b.whole && ascending (b :: es)

/- The parts of a set, which stand in order. -/
def setParts?
    (e : Element) : Option (List Element) := do
  let parts ← e.parts? Tag.set
  if ascending parts then
    return parts
  else
    none

/- The element inside an explicit tag. -/
def inside?
    (e : Element)
    (number : Nat) : Option Element := do
  let content ← e.contentOf? (Tag.contextual true number)
  single? content

/- Whether bytes are the shortest form of a number. -/
def isShortest : Bytes → Bool
  | [] => false
  | [_] => true
  | a :: b :: _ =>
      !((a == 0 && b < 0x80) || (a == 0xFF && 0x80 ≤ b))

/- A whole number. -/
def int?
    (e : Element) : Option Int := do
  let content ← e.contentOf? Tag.integer
  if !isShortest content then
    none
  else
    let n := Int.ofNat (BigEndian.toNat content)
    let top := content.head?.getD 0
    if top < 0x80 then
      return n
    else
      return n - Int.ofNat (Nat.pow 2 (8 * content.length))

/- A whole number that is not negative. -/
def nat?
    (e : Element) : Option Nat := do
  let i ← e.int?
  if i < 0 then none else return i.toNat

/- A whole number from zero to below a bound. -/
def natBelow?
    (bound : Nat)
    (e : Element) : Option Nat := do
  let n ← e.nat?
  if n < bound then return n else none

/- A whole number of one byte. -/
def byte?
    (e : Element) : Option Nat :=
  natBelow? (Nat.pow 2 8) e

/- A whole number of four bytes. -/
def short?
    (e : Element) : Option Nat :=
  natBelow? (Nat.pow 2 32) e

/- A whole number of eight bytes. -/
def word?
    (e : Element) : Option Nat :=
  natBelow? (Nat.pow 2 64) e

/- A truth value. -/
def bool?
    (e : Element) : Option Bool := do
  let content ← e.contentOf? Tag.boolean
  match content with
  | [b] =>
      if b == 0 then some false
      else if b == 0xFF then some true
      else none
  | _ => none

/- The bytes of an octet string. -/
def octets?
    (e : Element) : Option Bytes :=
  e.contentOf? Tag.octetString

/- So many bytes of an octet string. -/
def octetsOf?
    (count : Nat)
    (e : Element) : Option Bytes := do
  let bytes ← e.octets?
  if bytes.length == count then return bytes else none

/-
  The bytes of a bit string, which may leave some bits of
  the last byte unused if they are zero.
-/
def bitsOfContent? : Bytes → Option (Nat × Bytes)
  | [] => none
  | unused :: bytes =>
      let n := unused.toNat
      if 7 < n || (bytes.isEmpty && 0 < n) then
        none
      else
        let last := (bytes.getLast?.getD 0).toNat
        if last % Nat.pow 2 n != 0 then none
        else some (n, bytes)

/- The unused bits and the bytes of a bit string. -/
def bitString?
    (e : Element) : Option (Nat × Bytes) := do
  bitsOfContent? (← e.contentOf? Tag.bitString)

/- The bytes of a bit string, whatever bits are unused. -/
def bits?
    (e : Element) : Option Bytes :=
  e.bitString?.map Prod.snd

/- The numbers in identifiers take up sixteen bytes. -/
def arcBound : Nat := Nat.pow 2 128

/- Whether bytes are a list of numbers in groups. -/
def groupsFit
    (fuel : Nat)
    (bytes : Bytes) : Bool :=
  match bytes with
  | [] => true
  | _ =>
      match fuel with
      | 0 => false
      | fuel + 1 =>
          match readGroups? arcBound 0 bytes with
          | some (_, rest) => groupsFit fuel rest
          | none => false

/- An object identifier, by its bytes. -/
def identifier?
    (e : Element) : Option Bytes := do
  let content ← e.contentOf? Tag.identifier
  if content.isEmpty || 63 < content.length then
    none
  else if groupsFit content.length content then
    return content
  else
    none

/- The null element, which says nothing. -/
def null?
    (e : Element) : Option Unit :=
  if e.tag == Tag.null && e.content.isEmpty then some ()
  else none

------------------------------------------------------------
-- Times
------------------------------------------------------------

/- The number that decimal digits denote, if all are some. -/
def decimal?
    (bytes : Bytes) : Option Nat :=
  if bytes.all (fun b => 48 ≤ b && b ≤ 57) then
    some (bytes.foldl (fun n b => 10 * n + (b.toNat - 48)) 0)
  else
    none

/-
  The moment of a year and the digits after it.  Years are
  not looked at here, so one that no clock shows may occur.
-/
def momentOf?
    (year : Int)
    (rest : Bytes) : Option Moment := do
  let part := fun (i : Nat) =>
    decimal? ((rest.drop (2 * i)).take 2)
  let month ← part 0
  let day ← part 1
  let hour ← part 2
  let minute ← part 3
  let second ← part 4
  let m : Moment :=
    { year, month, day, hour, minute, second }
  if rest.length == 11 && rest.getLast? == some 0x5A &&
      m.isInCalendar then
    return m
  else
    none

/- A time with four digits for the year. -/
def generalizedTime?
    (e : Element) : Option Moment := do
  let content ← e.contentOf? Tag.generalizedTime
  let year ← decimal? (content.take 4)
  momentOf? (Int.ofNat year) (content.drop 4)

/- A time with two digits or four digits for the year. -/
def moment?
    (e : Element) : Option Moment :=
  if e.tag == Tag.utcTime then do
    let y ← decimal? (e.content.take 2)
    let year := if 50 ≤ y then 1900 + y else 2000 + y
    momentOf? (Int.ofNat year) (e.content.drop 2)
  else
    e.generalizedTime?

end Element

end Der

end LocalCert
