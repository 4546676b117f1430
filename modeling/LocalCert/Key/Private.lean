import LocalCert.Encoding.Pem
import LocalCert.Key.Edwards
import LocalCert.Key.Public

/-
  Private keys that are not encrypted, in their own formats
  or in the common one.  Of a private key only its public
  key is of use here.

  Key definitions include:
    * `PrivateKey`
    * `PrivateKey.publicKey`
    * `PrivateKey.ofPem`
-/

------------------------------------------------------------
-- Private Keys
------------------------------------------------------------

namespace LocalCert

open Inspection

/-
  A private key.  The multiple of a curve's base point is
  kept beside its multiplier.
-/
inductive PrivateKey where
  | onCurve (c : Curve) (secret x y : Nat)
  | rsa (k : Rsa.PrivateKey)
  | edwards (secret : Bytes)
  deriving DecidableEq, Repr

namespace PrivateKey

/- The public key that belongs to a private key. -/
def publicKey : PrivateKey → PublicKey
  | .onCurve c _ x y => .onCurve c x y
  | .rsa k => .rsa k.publicKey
  | .edwards secret => .edwards (Edwards.publicKey secret)

------------------------------------------------------------
-- Keys On Curves
------------------------------------------------------------

/- A key on a curve as it is encoded. -/
structure CurveForm where
  secret : Bytes
  parameters : Option CurveParameters
  point : Option Bytes
  deriving DecidableEq, Repr

/- The form of a key on a curve in an element. -/
def curveForm? : Der.Element → Option CurveForm :=
  Der.Element.fields? do
    let version ← Der.Fields.need Der.Element.byte?
    let secret ← Der.Fields.need Der.Element.octets?
    let parameters ←
      Der.Fields.explicit 0 CurveParameters.ofElement?
    let point ← Der.Fields.explicit 1 Der.Element.bits?
    if version == 1 then
      return ⟨secret, parameters, point⟩
    else
      failure

/- What says which curve; two of these must agree. -/
def agreed
    (outer inner : Option CurveParameters) :
    Except Defect (Option CurveParameters) :=
  match outer, inner with
  | some a, some b =>
      if a == b then .ok outer else .error .malformed
  | some _, none => .ok outer
  | none, _ => .ok inner

/- Whether a point that is given, if any, is the right one. -/
def pointFits
    (c : Curve)
    (point : Option Bytes)
    (expected : Nat × Nat) : Bool :=
  match point with
  | none => true
  | some bytes => c.decodePoint? bytes == some expected

/- A key on a curve, with parameters from around it. -/
def curveKey
    (outer : Option CurveParameters)
    (bytes : Bytes) : Except Defect PrivateKey := do
  let form ←
    orMalformed ((Der.single? bytes).bind curveForm?)
  let parameters ← agreed outer form.parameters
  let c ← PublicKey.curveOf parameters
  let secret := BigEndian.toNat form.secret
  if form.secret.length != BigEndian.width c.order ||
      secret == 0 || c.order ≤ secret then
    .error .malformed
  else
    let (x, y) ← orMalformed (c.public? secret)
    if pointFits c form.point (x, y) then
      return .onCurve c secret x y
    else
      .error .malformed

------------------------------------------------------------
-- Other Keys
------------------------------------------------------------

/- A key of two primes. -/
def rsaKey
    (bytes : Bytes) : Except Defect PrivateKey :=
  orMalformed ((Rsa.PrivateKey.ofBytes? bytes).map .rsa)

/- The keys that are plain bytes, and how many of these. -/
def plainKeys : List (Bytes × Nat) :=
  [(Algorithm.edwardsKey, 32), (Algorithm.edwards448Key, 57),
    (Algorithm.exchange25519, 32),
    (Algorithm.exchange448, 56)]

/-
  A key of plain bytes.  Where their number is wrong nothing
  can be computed, and only one kind of these keys is used.
-/
def plainKey
    (identifier : Bytes)
    (length : Nat)
    (bytes : Bytes) : Except Defect PrivateKey := do
  let secret ←
    orMalformed
      ((Der.single? bytes).bind Der.Element.octets?)
  if secret.length != length then
    .error .notComputed
  else if identifier == Algorithm.edwardsKey then
    return .edwards secret
  else
    .error .unsupportedAlgorithm

/- An attribute of a key: a name and a set of values. -/
def attribute? : Der.Element → Option Unit :=
  Der.Element.fields? do
    let _ ← Der.Fields.need Der.Element.identifier?
    let _ ← Der.Fields.need Der.Element.setParts?

/- A set of attributes of a key. -/
def attributes?
    (e : Der.Element) : Option (List Unit) := do
  (← e.setParts?).mapM attribute?

/- The algorithm and the content of the common format. -/
def commonForm? : Der.Element → Option (Algorithm × Bytes) :=
  Der.Element.fields? do
    let version ← Der.Fields.need Der.Element.byte?
    let algorithm ← Der.Fields.need Algorithm.ofElement?
    let key ← Der.Fields.need Der.Element.octets?
    let _ ← Der.Fields.implicit 0 Der.Tag.set attributes?
    if version == 0 then
      return (algorithm, key)
    else
      failure

/- A key in the common format. -/
def commonKey
    (bytes : Bytes) : Except Defect PrivateKey := do
  let (algorithm, key) ←
    orMalformed ((Der.single? bytes).bind commonForm?)
  let identifier := algorithm.identifier
  if identifier == Algorithm.curveKey then
    curveKey algorithm.curveParameters? key
  else if PublicKey.rsaKeys.contains identifier then
    rsaKey key
  else
    match plainKeys.find? (fun k => k.1 == identifier) with
    | some k => plainKey k.1 k.2 key
    | none => .error .unsupportedAlgorithm

/- An encrypted key: how it is encrypted, and its bytes. -/
def encryptedForm? : Der.Element → Option (Algorithm × Bytes) :=
  Der.Element.fields? do
    let algorithm ← Der.Fields.need Algorithm.ofElement?
    let content ← Der.Fields.need Der.Element.octets?
    return (algorithm, content)

/- An encrypted key is recognised, but not read. -/
def encryptedKey
    (bytes : Bytes) : Except Defect PrivateKey := do
  let _ ←
    orMalformed ((Der.single? bytes).bind encryptedForm?)
  .error .unsuitable

------------------------------------------------------------
-- Reading
------------------------------------------------------------

/- The labels of private keys and the formats they mean. -/
def formats :
    List (String × (Bytes → Except Defect PrivateKey)) :=
  [("PRIVATE KEY", commonKey),
    ("ENCRYPTED PRIVATE KEY", encryptedKey),
    ("RSA PRIVATE KEY", rsaKey),
    ("EC PRIVATE KEY", curveKey none),
    ("DSA PRIVATE KEY", fun _ => .error .malformed)]

/- The defect of a section whose headers forbid reading. -/
def headerDefect?
    (s : Pem.Section) : Option Defect :=
  match s.header? "Proc-Type" with
  | none => none
  | some kind =>
      match s.header? "DEK-Info" with
      | some info =>
          if kind == "4,ENCRYPTED" && info.contains ',' then
            some .unsuitable
          else
            some .malformed
      | none => some .malformed

/- The private key in a section. -/
def ofSection
    (s : Pem.Section) : Except Defect PrivateKey :=
  match headerDefect? s with
  | some d => .error d
  | none =>
      match formats.find? (fun f => f.1 == s.label) with
      | some f => f.2 s.contents
      | none => .error .malformed

/- The first private key in the text. -/
def ofPem
    (bytes : Bytes) : Except Defect PrivateKey :=
  match Pem.find? (formats.map Prod.fst) bytes with
  | some s => ofSection s
  | none => .error .malformed

end PrivateKey

end LocalCert
