import LocalCert.Encoding.Der.Element

/-
  The writing of DER elements.

  Key definitions include:
    * `Der.encode`
    * `Der.encodeNat`
-/

------------------------------------------------------------
-- Writing Elements
------------------------------------------------------------

namespace LocalCert

namespace Der

/- The bytes of a length. -/
def encodeLength
    (n : Nat) : Bytes :=
  if n < 0x80 then
    [UInt8.ofNat n]
  else
    let digits := BigEndian.minimal n
    UInt8.ofNat (0x80 + digits.length) :: digits

/- An element with a tag below thirty-one. -/
def encode
    (tag : Tag)
    (content : Bytes) : Bytes :=
  let first :=
    tag.family * 64 + (if tag.constructed then 32 else 0) +
      tag.number
  UInt8.ofNat first ::
    (encodeLength content.length ++ content)

/- The element of a number that is not negative. -/
def encodeNat
    (n : Nat) : Bytes :=
  let digits := BigEndian.minimal n
  encode Tag.integer
    (match digits with
      | [] => [0]
      | d :: _ => if d < 0x80 then digits else 0 :: digits)

end Der

end LocalCert
