import LocalCert.Certificate.Extension.Basic
import LocalCert.Certificate.GeneralName

/-
  The extensions whose values hold general names: other
  names of the subject or the issuer, the key and the
  services of an authority, places where lists of withdrawn
  certificates are found, and the names that an authority
  may give.

  Key definitions include:
    * `Extension.generalNames`
    * `Extension.authorityKey`
    * `Extension.services`
    * `Extension.distribution`
    * `Extension.nameConstraints`
-/

------------------------------------------------------------
-- Names And Authorities
------------------------------------------------------------

namespace LocalCert

namespace Certificate

namespace Extension

open Der Inspection

/- The general names that an element lists. -/
def generalNames
    (e : Element) : Except Defect (List GeneralName) := do
  decodeNames (← orMalformed (rawGeneralNames? e))

/- Optional general names below a number. -/
def namesField
    (number : Nat) :
    Fields (Option (List RawGeneralName)) :=
  Fields.implicit number Tag.sequence rawGeneralNames?

/- General names, if there are any, are read. -/
def decodeOptional
    (names : Option (List RawGeneralName)) :
    Except Defect (Option (List GeneralName)) :=
  match names with
  | none => .ok none
  | some names => (decodeNames names).map some

/-
  The key of an authority, and a certificate of its own by
  issuer and serial number, which come together.
-/
def authorityKey : Check := fun e => do
  let (issuer, serial) ← orMalformed
    (e.fields? do
      let _ ←
        Fields.implicit 0 Tag.octetString Element.octets?
      let issuer ← namesField 1
      let serial ←
        Fields.implicit 2 Tag.integer Element.nat?
      return (issuer, serial))
  let _ ← decodeOptional issuer
  require (issuer.isSome == serial.isSome)

/- A service: what it is for and where it is. -/
def service? : Element → Option RawGeneralName :=
  Element.fields? do
    let _ ← Fields.need Element.identifier?
    Fields.need rawGeneralName?

/- The services of an authority or a subject. -/
def services : Check := fun e => do
  let names ← orMalformed (e.each? service?)
  let _ ← decodeNames names

------------------------------------------------------------
-- Distribution
------------------------------------------------------------

/- The name of a place: in full, or below the issuer's. -/
inductive PlaceName where
  | full (names : List RawGeneralName)
  | relative (set : List RawAttribute)
  deriving DecidableEq, Repr

/- The name of a place in an element. -/
def placeName?
    (e : Element) : Option PlaceName :=
  if e.tag == Tag.contextual true 0 then
    (rawGeneralNames? (e.as Tag.sequence)).map .full
  else if e.tag == Tag.contextual true 1 then
    (rawSet? (e.as Tag.set)).map .relative
  else
    none

/- A place: its name and who issues the list there. -/
structure Place where
  name : Option PlaceName
  issuer : Option (List RawGeneralName)
  deriving DecidableEq, Repr

/- A place in an element; reasons may stand in between. -/
def place? : Element → Option Place :=
  Element.fields? do
    let name ← Fields.explicit 0 placeName?
    let _ ←
      Fields.implicit 1 Tag.bitString Element.bitString?
    let issuer ← namesField 2
    return ⟨name, issuer⟩

/- Whether the name of a place says anything. -/
def PlaceName.check : PlaceName → Except Defect Bool
  | .full names =>
      (decodeNames names).map (fun names => !names.isEmpty)
  | .relative set => (decodeSet set).map (fun _ => true)

/- A place has a name or an issuer that says something. -/
def Place.check
    (p : Place) : Except Defect Unit := do
  let isNamed ←
    match p.name with
    | some name => name.check
    | none => .ok false
  let issuer ← decodeOptional p.issuer
  require (isNamed || !(issuer.getD []).isEmpty)

/- The places where lists are found. -/
def distribution : Check := fun e => do
  let places ← orMalformed (e.each? place?)
  places.forM Place.check

------------------------------------------------------------
-- Constraints
------------------------------------------------------------

/- A name with the depths below it that are meant. -/
def subtree? : Element → Option RawGeneralName :=
  Element.fields? do
    let name ← Fields.need rawGeneralName?
    let _ ← Fields.orUsual 0
      (Fields.implicit 0 Tag.integer Element.word?)
    let _ ← Fields.implicit 1 Tag.integer Element.word?
    return name

/- Optional names with their depths below a number. -/
def subtreesField
    (number : Nat) :
    Fields (Option (List RawGeneralName)) :=
  Fields.implicit number Tag.sequence
    (Element.each? subtree?)

/- Whether a name is a single address, not a network. -/
def isAddress : GeneralName → Bool
  | .address _ => true
  | _ => false

/- Whether a name is a host name with an asterisk. -/
def hasAsterisk : GeneralName → Bool
  | .dns name => name.toList.contains '*'
  | _ => false

/-
  Names that bound others: some of them, networks in place
  of addresses, and no asterisks.
-/
def checkBounds
    (names : Option (List GeneralName)) :
    Except Defect Unit :=
  match names with
  | none => .ok ()
  | some names =>
      if names.isEmpty then
        .error .malformed
      else if names.any isAddress then
        .error .unsuitable
      else
        require (!names.any hasAsterisk)

/- The names that are permitted, excluded, or both. -/
def nameConstraints : Check := fun e => do
  let (permitted, excluded) ← orMalformed
    (e.fields? do
      let permitted ← subtreesField 0
      let excluded ← subtreesField 1
      return (permitted, excluded))
  let permitted ← decodeOptional permitted
  let excluded ← decodeOptional excluded
  checkBounds permitted
  checkBounds excluded
  require (permitted.isSome || excluded.isSome)

end Extension

end Certificate

end LocalCert
