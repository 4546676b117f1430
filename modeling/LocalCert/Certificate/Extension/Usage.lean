import LocalCert.Certificate.Extension.Basic

/-
  The extensions that say what a key may be used for, and
  for how long.

  Key definitions include:
    * `Extension.keyUsage`
    * `Extension.extendedUsage`
    * `Extension.authority`
    * `Extension.policyConstraints`
    * `Extension.features`
    * `Extension.usagePeriod`
-/

------------------------------------------------------------
-- Uses
------------------------------------------------------------

namespace LocalCert

namespace Certificate

namespace Extension

open Der Inspection

/- Whether a bit is set; the first one is the highest. -/
def hasBit
    (bytes : Bytes)
    (n : Nat) : Bool :=
  match bytes[n / 8]? with
  | some b => b.toNat / Nat.pow 2 (7 - n % 8) % 2 == 1
  | none => false

/-
  The uses of a key.  Keys that only encipher or only
  decipher, the last two uses, must agree on keys.
-/
def keyUsage : Check := fun e => do
  let (_, bytes) ← orMalformed e.bitString?
  require
    (hasBit bytes 4 ||
      !(hasBit bytes 7 || hasBit bytes 8))

/- The purposes of a key, of which there are some. -/
def extendedUsage : Check := fun e => do
  let purposes ← orMalformed (e.each? Element.identifier?)
  require (!purposes.isEmpty)

/-
  Whether a key belongs to an authority, and how long the
  chains below it may be; only authorities have chains.
-/
def authority : Check := fun e => do
  let (isAuthority, length) ← orMalformed
    (e.fields? do
      let isAuthority ← Fields.orUsual false
        (Fields.withTag Tag.boolean Element.bool?)
      let length ← Fields.withTag Tag.integer Element.word?
      return (isAuthority, length))
  require (isAuthority || length.isNone)

/- After how many steps policies matter: one of two. -/
def policyConstraints : Check := fun e => do
  let (explicit, mapping) ← orMalformed
    (e.fields? do
      let explicit ←
        Fields.implicit 0 Tag.integer Element.word?
      let mapping ←
        Fields.implicit 1 Tag.integer Element.word?
      return (explicit, mapping))
  require (explicit.isSome || mapping.isSome)

/- The features of connections that are known. -/
def knownFeatures : List Nat := [5, 17]

/-
  The features that connections must have.  A number without
  a feature is looked up in vain, and a list without numbers
  is no list of features.
-/
def features : Check := fun e => do
  let numbers ← orMalformed (e.each? Element.word?)
  if !numbers.all knownFeatures.contains then
    .error .unknownFeature
  else if numbers.isEmpty then
    .error .unsuitable
  else
    .ok ()

------------------------------------------------------------
-- Periods And Templates
------------------------------------------------------------

/- Whether a moment, if there is one, can be shown. -/
def isShown
    (m : Option Moment) : Bool :=
  m.all Moment.isValid

/- Whether one moment does not come after another one. -/
def inTime : Option Moment → Option Moment → Bool
  | some first, some last => first.notAfter last
  | _, _ => true

/- From when on and until when a key is used: one of both. -/
def usagePeriod : Check := fun e => do
  let (first, last) ← orMalformed
    (e.fields? do
      let first ← Fields.implicit 0 Tag.generalizedTime
        Element.generalizedTime?
      let last ← Fields.implicit 1 Tag.generalizedTime
        Element.generalizedTime?
      return (first, last))
  require
    ((first.isSome || last.isSome) &&
      isShown first && isShown last && inTime first last)

/- The template of a certificate with its version. -/
def template : Check :=
  ofForm (Element.fields? do
    let _ ← Fields.need Element.identifier?
    let _ ← Fields.withTag Tag.integer Element.short?
    let _ ← Fields.withTag Tag.integer Element.short?)

end Extension

end Certificate

end LocalCert
