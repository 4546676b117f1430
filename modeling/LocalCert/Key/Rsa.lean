import LocalCert.Encoding.Der.Fields
import LocalCert.Encoding.Der.Writer
import LocalCert.Key.Primality

/-
  Keys of two primes.  A private key comes with numbers that
  follow from the primes, and all of them are checked.

  Key definitions include:
    * `Rsa.PublicKey`
    * `Rsa.PrivateKey`
    * `Rsa.PrivateKey.isConsistent`
-/

------------------------------------------------------------
-- Public Keys
------------------------------------------------------------

namespace LocalCert

namespace Rsa

/- A modulus and an exponent. -/
structure PublicKey where
  modulus : Nat
  exponent : Nat
  deriving DecidableEq, Repr

/-
  Whether the exponent of a public key that stands alone is
  odd, at least three and below the modulus.
-/
def PublicKey.isSound
    (k : PublicKey) : Bool :=
  3 ≤ k.exponent && k.exponent < k.modulus &&
    k.exponent % 2 == 1

/- The public key that bytes hold, if it is sound. -/
def PublicKey.ofBytes?
    (bytes : Bytes) : Option PublicKey := do
  let key ← (← Der.single? bytes).fields? do
    let modulus ← Der.Fields.need Der.Element.nat?
    let exponent ← Der.Fields.need Der.Element.nat?
    return PublicKey.mk modulus exponent
  if key.isSound then
    return key
  else
    none

/- A public key as bytes. -/
def PublicKey.encode
    (k : PublicKey) : Bytes :=
  Der.encode Der.Tag.sequence
    (Der.encodeNat k.modulus ++ Der.encodeNat k.exponent)

------------------------------------------------------------
-- Private Keys
------------------------------------------------------------

/-
  A private key: both exponents, the primes, and what
  follows from these.
-/
structure PrivateKey where
  modulus : Nat
  exponent : Nat
  secret : Nat
  primeP : Nat
  primeQ : Nat
  secretP : Nat
  secretQ : Nat
  coefficient : Nat
  deriving DecidableEq, Repr

namespace PrivateKey

/- Whether two numbers multiply to one modulo another. -/
def areInverse
    (m a b : Nat) : Bool :=
  a * b % m == 1 % m

/- Whether all numbers of a key fit together. -/
def isConsistent
    (k : PrivateKey) : Bool :=
  let p := k.primeP
  let q := k.primeQ
  k.exponent != 1 && k.exponent % 2 == 1 &&
    p * q == k.modulus && p % 2 == 1 && q % 2 == 1 &&
    Primality.isProbablyPrime p &&
    Primality.isProbablyPrime q &&
    areInverse (Nat.lcm (p - 1) (q - 1)) k.secret
      k.exponent &&
    k.secretP == k.secret % (p - 1) &&
    k.secretQ == k.secret % (q - 1) &&
    k.coefficient < p && areInverse p k.coefficient q

/-
  The numbers of a private key after its version.  Further
  primes may stand after them, but are not looked at.
-/
def ofElement? : Der.Element → Option PrivateKey :=
  Der.Element.fields? do
    let number := Der.Fields.need Der.Element.nat?
    let version ← Der.Fields.need Der.Element.byte?
    let key : PrivateKey :=
      { modulus := ← number
        exponent := ← number
        secret := ← number
        primeP := ← number
        primeQ := ← number
        secretP := ← number
        secretQ := ← number
        coefficient := ← number }
    let _ ← Der.Fields.withTag Der.Tag.sequence some
    if version == 0 then return key else failure

/- The private key that bytes hold, if it is consistent. -/
def ofBytes?
    (bytes : Bytes) : Option PrivateKey := do
  let key ← ofElement? (← Der.single? bytes)
  if key.isConsistent then
    return key
  else
    none

/- The public part of a key. -/
def publicKey
    (k : PrivateKey) : PublicKey :=
  ⟨k.modulus, k.exponent⟩

end PrivateKey

end Rsa

end LocalCert
