import LocalCert.Encoding.BigEndian

/-
  DER elements: a tag, a length and a content each.  Lengths
  have their shortest form, and nothing may stand after an
  element that is read as a whole.

  Key definitions include:
    * `Der.Tag`
    * `Der.Element`
    * `Der.next?`
    * `Der.all?`
    * `Der.single?`
-/

------------------------------------------------------------
-- Tags
------------------------------------------------------------

namespace LocalCert

namespace Der

/- The tag of an element. -/
structure Tag where
  /- The class, from universal to private. -/
  family : Nat
  constructed : Bool
  number : Nat
  deriving DecidableEq, Repr

namespace Tag

/- A universal tag of an element without parts. -/
def plain
    (number : Nat) : Tag :=
  ⟨0, false, number⟩

/- A tag whose meaning depends on its place. -/
def contextual
    (constructed : Bool)
    (number : Nat) : Tag :=
  ⟨2, constructed, number⟩

/- Truth values. -/
def boolean : Tag := plain 1

/- Whole numbers. -/
def integer : Tag := plain 2

/- Lists of bits. -/
def bitString : Tag := plain 3

/- Lists of bytes. -/
def octetString : Tag := plain 4

/- The element that says nothing. -/
def null : Tag := plain 5

/- Object identifiers. -/
def identifier : Tag := plain 6

/- Times with two digits for the year. -/
def utcTime : Tag := plain 23

/- Times with four digits for the year. -/
def generalizedTime : Tag := plain 24

/- Lists of elements. -/
def sequence : Tag := ⟨0, true, 16⟩

/- Sets of elements, in the order of their bytes. -/
def set : Tag := ⟨0, true, 17⟩

end Tag

/- A tag, a content, and the bytes of the whole. -/
structure Element where
  tag : Tag
  content : Bytes
  whole : Bytes
  deriving DecidableEq, Repr

------------------------------------------------------------
-- Reading Elements
------------------------------------------------------------

/-
  A number below a bound in groups of seven bits, and what
  follows.
-/
def readGroups?
    (bound : Nat)
    (value : Nat) : Bytes → Option (Nat × Bytes)
  | [] => none
  | b :: bs =>
      if value == 0 && b == 0x80 then
        none
      else
        let value := value * 128 + b.toNat % 128
        if bound ≤ value then
          none
        else if b < 0x80 then
          some (value, bs)
        else
          readGroups? bound value bs

/- Numbers of tags take up no more than four bytes. -/
def tagBound : Nat := Nat.pow 2 32

/- Read a tag. -/
def readTag? : Bytes → Option (Tag × Bytes)
  | [] => none
  | b :: bs =>
      let family := b.toNat / 64
      let constructed := b.toNat / 32 % 2 == 1
      let number := b.toNat % 32
      if number < 31 then
        some (⟨family, constructed, number⟩, bs)
      else
        match readGroups? tagBound 0 bs with
        | some (n, rest) =>
            if n < 31 then
              none
            else
              some (⟨family, constructed, n⟩, rest)
        | none => none

/- Read a length in its shortest form. -/
def readLength? : Bytes → Option (Nat × Bytes)
  | [] => none
  | b :: bs =>
      if b < 0x80 then
        some (b.toNat, bs)
      else
        let count := b.toNat - 0x80
        let digits := bs.take count
        let n := BigEndian.toNat digits
        if count == 0 || 4 < count ||
            digits.length < count then
          none
        else if digits.head? == some 0 || n < 0x80 then
          none
        else
          some (n, bs.drop count)

/- The first element, and what follows it. -/
def next?
    (bytes : Bytes) : Option (Element × Bytes) := do
  let (tag, rest) ← readTag? bytes
  let (length, rest) ← readLength? rest
  let content := rest.take length
  if content.length < length then
    none
  else
    let after := rest.drop length
    let whole := bytes.take (bytes.length - after.length)
    return (⟨tag, content, whole⟩, after)

/- All elements, of which there are no more than bytes. -/
def readAll?
    (bound : Nat)
    (bytes : Bytes) : Option (List Element) :=
  match bytes with
  | [] => some []
  | _ =>
      match bound with
      | 0 => none
      | bound + 1 => do
          let (e, rest) ← next? bytes
          let es ← readAll? bound rest
          return e :: es

/- All elements of some bytes. -/
def all?
    (bytes : Bytes) : Option (List Element) :=
  readAll? bytes.length bytes

/- The element that takes up all bytes. -/
def single?
    (bytes : Bytes) : Option Element := do
  let (e, rest) ← next? bytes
  if rest.isEmpty then
    return e
  else
    none

end Der

end LocalCert
