import LocalCert.Encoding.Algorithm.Names
import LocalCert.Encoding.CurveParameters
import LocalCert.Encoding.Der.Writer

/-
  The forms that parameters of algorithms must have.  Some
  parameters name algorithms themselves; how these are read
  is left open here.

  Key definitions include:
    * `Algorithm.encode`
    * `Algorithm.Reader`
    * `Algorithm.form`
-/

------------------------------------------------------------
-- Algorithms As Bytes
------------------------------------------------------------

namespace LocalCert

namespace Algorithm

open Der

/- The bytes that name an algorithm. -/
def encode
    (identifier : Bytes)
    (parameters : Bytes) : Bytes :=
  Der.encode Tag.sequence
    (Der.encode Tag.identifier identifier ++ parameters)

/- The bytes of the null element. -/
def nullBytes : Bytes :=
  Der.encode Tag.null []

/- The bytes of the hash that is usual. -/
def usualHash : Bytes :=
  encode sha1 nullBytes

/- The bytes of the mask that is usual. -/
def usualMask : Bytes :=
  encode maskByHash usualHash

/- The bytes of the code that is usual. -/
def usualCode : Bytes :=
  encode hmacSha1 nullBytes

------------------------------------------------------------
-- Forms Of Parameters
------------------------------------------------------------

/- A reader of algorithms, which gives back their bytes. -/
abbrev Reader : Type :=
  Element → Option Bytes

/- No parameters, or the null element. -/
def nullForm : Fields Unit := do
  let _ ← Fields.withTag Tag.null Element.null?

/- No parameters, or any one element. -/
def anyForm : Fields Unit := do
  let _ ← Fields.optional (fun _ => true) some

/- Parameters that are read by fields and must be there. -/
def sequenceForm
    (fields : Fields Unit) : Fields Unit :=
  Fields.need (Element.fields? fields)

/- What says which curve. -/
def curveForm : Fields Unit := do
  let _ ← Fields.need CurveParameters.ofElement?

/- So many bytes. -/
def octetsForm
    (count : Nat) : Fields Unit := do
  let _ ← Fields.need (Element.octetsOf? count)

/- So many numbers that are not negative. -/
def numbersForm : Nat → Fields Unit
  | 0 => return ()
  | count + 1 => do
      let _ ← Fields.need Element.nat?
      numbersForm count

/- A prime, a base and an order, and how they came about. -/
def exchangeForm : Fields Unit :=
  sequenceForm do
    numbersForm 3
    let _ ← Fields.withTag Tag.integer Element.nat?
    let _ ← Fields.withTag Tag.sequence some

/- A prime, a base and the size of secrets. -/
def plainExchangeForm : Fields Unit :=
  sequenceForm do
    numbersForm 2
    let _ ← Fields.withTag Tag.integer Element.short?

/- A mask with the algorithm that it is made from. -/
def mask?
    (algorithm? : Reader)
    (e : Element) : Option Bytes :=
  e.fields? do
    let _ ← Fields.need Element.identifier?
    let _ ← Fields.need algorithm?
    return e.whole

/- A hash, a mask, the length of the salt and a trailer. -/
def pssForm
    (algorithm? : Reader) : Fields Unit := do
  let _ ← Fields.withTag Tag.sequence
    (Element.fields? do
      let _ ← Fields.orUsual usualHash
        (Fields.explicit 0 algorithm?)
      let _ ← Fields.orUsual usualMask
        (Fields.explicit 1 (mask? algorithm?))
      let _ ← Fields.orUsual 20
        (Fields.explicit 2
          (Element.natBelow? (Nat.pow 2 16)))
      let _ ← Fields.explicit 3 Element.byte?)

/- Two algorithms. -/
def twoStepsForm
    (algorithm? : Reader) : Fields Unit :=
  sequenceForm do
    let _ ← Fields.need algorithm?
    let _ ← Fields.need algorithm?

/- Salt, rounds, the length of the key and a code. -/
def repeatedCodeForm
    (algorithm? : Reader) : Fields Unit :=
  sequenceForm do
    let _ ← Fields.need Element.octets?
    let _ ← Fields.need Element.word?
    let _ ← Fields.withTag Tag.integer Element.word?
    let _ ← Fields.orUsual usualCode
      (Fields.withTag Tag.sequence algorithm?)

/- Salt, three costs and the length of the key. -/
def memoryHardForm : Fields Unit :=
  sequenceForm do
    let _ ← Fields.need Element.octets?
    let _ ← Fields.need Element.word?
    let _ ← Fields.need Element.word?
    let _ ← Fields.need Element.word?
    let _ ← Fields.withTag Tag.integer Element.short?

/- The strength of a cipher and its first block. -/
def weakCipherForm : Fields Unit :=
  sequenceForm do
    let _ ← Fields.withTag Tag.integer Element.short?
    let _ ← Fields.need (Element.octetsOf? 8)

/- Salt of a form of its own, and rounds. -/
def saltForm
    (salt? : Element → Option Bytes) : Fields Unit :=
  sequenceForm do
    let _ ← Fields.need salt?
    let _ ← Fields.need Element.word?

------------------------------------------------------------
-- Forms By Algorithm
------------------------------------------------------------

/- Algorithms and the form of their parameters. -/
def forms
    (algorithm? : Reader) :
    List (List Bytes × Fields Unit) :=
  [(nullable, nullForm),
    (bare, return ()),
    ([curveKey], curveForm),
    ([rsaPssKey], pssForm algorithm?),
    ([dsaKey], sequenceForm (numbersForm 3)),
    ([exchangeKey], exchangeForm),
    ([plainExchangeKey], plainExchangeForm),
    ([twoSteps], twoStepsForm algorithm?),
    ([repeatedCode], repeatedCodeForm algorithm?),
    ([memoryHard], memoryHardForm),
    (wideCiphers, octetsForm 16),
    ([tripleCipher], octetsForm 8),
    ([weakCipher], weakCipherForm),
    ([withHash], saltForm (Element.octetsOf? 8)),
    (inArchives, saltForm Element.octets?)]

/- The form of the parameters of an algorithm. -/
def form
    (algorithm? : Reader)
    (identifier : Bytes) : Fields Unit :=
  match (forms algorithm?).find?
      (fun f => f.1.contains identifier) with
  | some f => f.2
  | none => anyForm

end Algorithm

end LocalCert
