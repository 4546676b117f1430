import LocalCert.Encoding.Der.Content
import LocalCert.Text.Utf8

/-
  The texts in DER elements.  Each type of text has its own
  characters and its own way to write them as bytes.

  Key definitions include:
    * `Der.wideText?`
    * `Der.fullText?`
    * `Der.Element.asciiText?`
    * `Der.Element.displayText?`
-/

------------------------------------------------------------
-- Texts As Bytes
------------------------------------------------------------

namespace LocalCert

namespace Der

/- The characters of bytes that are well-formed text. -/
def plainText?
    (bytes : Bytes) : Option (List Char) :=
  (Text.Utf8.decode bytes).toOption

/- The characters of units of two bytes. -/
def wideText? : Bytes → Option (List Char)
  | [] => some []
  | a :: b :: rest =>
      let unit := a.toNat * 256 + b.toNat
      if 0xD800 ≤ unit && unit < 0xDC00 then
        match rest with
        | c :: d :: rest =>
            let low := c.toNat * 256 + d.toNat
            if 0xDC00 ≤ low && low < 0xE000 then
              (wideText? rest).map
                (Char.ofNat
                  (0x10000 + (unit - 0xD800) * 0x400 +
                    (low - 0xDC00)) :: ·)
            else
              none
        | _ => none
      else if 0xDC00 ≤ unit && unit < 0xE000 then
        none
      else
        (wideText? rest).map (Char.ofNat unit :: ·)
  | _ => none

/- The characters of units of four bytes. -/
def fullText? : Bytes → Option (List Char)
  | [] => some []
  | a :: b :: c :: d :: rest =>
      let n := BigEndian.toNat [a, b, c, d]
      if 0x110000 ≤ n || (0xD800 ≤ n && n < 0xE000) then
        none
      else
        (fullText? rest).map (Char.ofNat n :: ·)
  | _ => none

/- Whether a byte is a letter, a digit or a simple sign. -/
def isSimple
    (b : UInt8) : Bool :=
  let c := Char.ofNat b.toNat
  c.isAlphanum || " \x27()+,-./:=?".toList.contains c

/- Whether a byte is a visible character or a space. -/
def isVisible
    (b : UInt8) : Bool :=
  0x20 ≤ b && b ≤ 0x7E

------------------------------------------------------------
-- Types Of Texts
------------------------------------------------------------

namespace Tag

/- Texts of any characters. -/
def utf8Text : Tag := plain 12

/- Texts of letters, digits and simple signs. -/
def printableText : Tag := plain 19

/- Texts of ASCII characters. -/
def asciiText : Tag := plain 22

/- Texts of visible characters. -/
def visibleText : Tag := plain 26

/- Texts in units of four bytes. -/
def fullText : Tag := plain 28

/- Texts in units of two bytes. -/
def wideText : Tag := plain 30

end Tag

namespace Element

/- The content of a text all of whose bytes are allowed. -/
def textOf?
    (tag : Tag)
    (allowed : UInt8 → Bool)
    (e : Element) : Option Bytes := do
  let content ← e.contentOf? tag
  if content.all allowed then return content else none

/- A text of ASCII characters. -/
def asciiText?
    (e : Element) : Option Bytes :=
  textOf? Tag.asciiText (· < 0x80) e

/- A text of letters, digits and simple signs. -/
def printableText?
    (e : Element) : Option Bytes :=
  textOf? Tag.printableText isSimple e

/- Whether a tag can begin a text that is displayed. -/
def beginsDisplay
    (tag : Tag) : Bool :=
  [Tag.utf8Text, Tag.asciiText, Tag.visibleText,
    Tag.wideText].contains tag

/- A text that is displayed, in one of four types. -/
def displayText?
    (e : Element) : Option Unit :=
  if e.tag == Tag.utf8Text then
    (plainText? e.content).map (fun _ => ())
  else if e.tag == Tag.wideText then
    (wideText? e.content).map (fun _ => ())
  else if e.tag == Tag.asciiText then
    e.asciiText?.map (fun _ => ())
  else
    (textOf? Tag.visibleText isVisible e).map (fun _ => ())

end Element

end Der

end LocalCert
