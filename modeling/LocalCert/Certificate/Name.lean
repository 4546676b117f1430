import LocalCert.Encoding.Der.Text
import LocalCert.Inspection.Defect

/-
  The names in a certificate: sets of attributes in order.
  An attribute is read only when its name is asked for.

  Key definitions include:
    * `Certificate.Value`
    * `Certificate.Attribute`
    * `Certificate.Name`
    * `Certificate.RawName.decode`
    * `Certificate.Name.same`
-/

------------------------------------------------------------
-- Names
------------------------------------------------------------

namespace LocalCert

namespace Certificate

open Inspection

/- The value of an attribute. -/
inductive Value where
  | text (s : String)
  | bytes (content : Bytes)
  deriving DecidableEq, Repr

/- An attribute: its identifier and its value. -/
structure Attribute where
  identifier : Bytes
  value : Value
  deriving DecidableEq, Repr

/- Sets of attributes, each set as a list. -/
structure Name where
  sets : List (List Attribute)
  deriving DecidableEq, Repr

/- The identifier of the common name. -/
def commonName : Bytes := [0x55, 0x04, 0x03]

/- The identifier of the unique identifier. -/
def uniqueIdentifier : Bytes := [0x55, 0x04, 0x2D]

namespace Name

/- All attributes in order. -/
def attributes
    (n : Name) : List Attribute :=
  n.sets.flatMap id

/- The values of the common names in order. -/
def commonNames
    (n : Name) : List Value :=
  (n.attributes.filter
    (fun a => a.identifier == commonName)).map
      Attribute.value

/- Whether two lists of attributes are the same set. -/
def sameSet
    (a b : List Attribute) : Bool :=
  a.length == b.length && a.all b.contains &&
    b.all a.contains

/- Whether two lists of sets agree set by set. -/
def sameSets :
    List (List Attribute) → List (List Attribute) → Bool
  | [], [] => true
  | a :: as, b :: bs => sameSet a b && sameSets as bs
  | _, _ => false

/- Whether two names are the same. -/
def same
    (m n : Name) : Bool :=
  sameSets m.sets n.sets

/- The name that has the given common names. -/
def ofCommonNames
    (values : List Value) : Name :=
  ⟨values.map (fun v => [⟨commonName, v⟩])⟩

end Name

------------------------------------------------------------
-- Forms Of Texts
------------------------------------------------------------

/-
  Whether a value has the form of its type; only the types
  with narrow forms are looked at.
-/
def textFits
    (e : Der.Element) : Bool :=
  if e.tag == Der.Tag.printableText then
    e.printableText?.isSome
  else if e.tag == Der.Tag.fullText then
    (Der.fullText? e.content).isSome
  else if e.tag == Der.Tag.wideText then
    (Der.wideText? e.content).isSome
  else
    true

------------------------------------------------------------
-- Names As They Are Encoded
------------------------------------------------------------

/- An attribute whose value is not read yet. -/
structure RawAttribute where
  identifier : Bytes
  value : Der.Element
  deriving DecidableEq, Repr

/- Sets of attributes whose values are not read yet. -/
structure RawName where
  sets : List (List RawAttribute)
  deriving DecidableEq, Repr

/- An attribute in a set. -/
def rawAttribute?
    (e : Der.Element) : Option RawAttribute := do
  match ← e.items? with
  | [identifier, value] =>
      if textFits value then
        return ⟨← identifier.identifier?, value⟩
      else
        none
  | _ => none

/- A set of attributes. -/
def rawSet?
    (e : Der.Element) : Option (List RawAttribute) := do
  let parts ← e.setParts?
  parts.mapM rawAttribute?

/- A name. -/
def rawName?
    (e : Der.Element) : Option RawName := do
  let items ← e.items?
  let sets ← items.mapM rawSet?
  return ⟨sets⟩

------------------------------------------------------------
-- Reading Values
------------------------------------------------------------

/- The types of text that are read byte by byte. -/
def plainTexts : List Der.Tag :=
  [4, 12, 18, 19, 20, 22, 23, 24, 26].map Der.Tag.plain

/- Characters, if there are any, as a text value. -/
def textValue
    (cs : Option (List Char)) : Except Defect Value :=
  match cs with
  | some cs => .ok (.text (String.ofList cs))
  | none => .error .malformed

/- The value of an attribute, by the type of its element. -/
def RawAttribute.decode
    (a : RawAttribute) : Except Defect Attribute :=
  let e := a.value
  let value :=
    if e.tag == Der.Tag.bitString then
      if a.identifier == uniqueIdentifier then
        .ok (.bytes e.content)
      else
        .error .unsuitable
    else if e.tag == Der.Tag.wideText then
      textValue (Der.wideText? e.content)
    else if e.tag == Der.Tag.fullText then
      textValue (Der.fullText? e.content)
    else if plainTexts.contains e.tag then
      textValue (Der.plainText? e.content)
    else
      .error .malformed
  value.map (fun v => ⟨a.identifier, v⟩)

/- Whether no element of a list occurs again. -/
def distinct : List Attribute → Bool
  | [] => true
  | a :: as => !as.contains a && distinct as

/- The attributes of a set: at least one, and none twice. -/
def decodeSet
    (set : List RawAttribute) :
    Except Defect (List Attribute) := do
  let attributes ← set.mapM RawAttribute.decode
  if attributes.isEmpty || !distinct attributes then
    .error .malformed
  else
    return attributes

/- The name with all its values read. -/
def RawName.decode
    (n : RawName) : Except Defect Name := do
  let sets ← n.sets.mapM decodeSet
  return ⟨sets⟩

end Certificate

end LocalCert
