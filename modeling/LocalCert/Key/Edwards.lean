import LocalCert.Key.Modular
import LocalCert.Key.Sha512

/-
  The Edwards curve over the field of `2²⁵⁵ - 19` elements,
  and the public key that belongs to a secret.

  Key definitions include:
    * `Edwards.multiply`
    * `Edwards.publicKey`
-/

------------------------------------------------------------
-- Points
------------------------------------------------------------

namespace LocalCert

namespace Edwards

/- The prime of the field. -/
def prime : Nat := Nat.pow 2 255 - 19

/- The constant of the curve's equation. -/
def constant : Nat :=
  Modular.sub prime 0
    (121665 * Modular.inverse prime 121666 % prime)

/-
  A point whose coordinates are `x / z` and `y / z`; the
  product of both is `t / z`.
-/
structure Point where
  x : Nat
  y : Nat
  z : Nat
  t : Nat
  deriving DecidableEq, Repr

/- The neutral point. -/
def neutral : Point := ⟨0, 1, 1, 0⟩

/- The base point. -/
def base : Point :=
  let y := 4 * Modular.inverse prime 5 % prime
  let x :=
    0x216936D3CD6E53FEC0A4E231FDD6DC5C692CC7609525A7B2C9562D608F25D51A
  ⟨x, y, 1, x * y % prime⟩

/- The sum of two points. -/
def add
    (p q : Point) : Point :=
  let m := prime
  let a :=
    Modular.sub m p.y p.x * Modular.sub m q.y q.x % m
  let b := (p.y + p.x) * (q.y + q.x) % m
  let c := 2 * p.t % m * q.t % m * constant % m
  let d := 2 * p.z * q.z % m
  let e := Modular.sub m b a
  let f := Modular.sub m d c
  let g := (d + c) % m
  let h := (b + a) % m
  ⟨e * f % m, g * h % m, f * g % m, e * h % m⟩

/- A multiple of a point, by doubling. -/
def multiply
    (p : Point)
    (k : Nat) : Point :=
  if k == 0 then
    neutral
  else
    let half := multiply p (k / 2)
    let twice := add half half
    if k % 2 == 0 then twice else add twice p
termination_by k
decreasing_by
  rename_i h
  have : k ≠ 0 := by simpa using h
  omega

/- A point as thirty-two bytes. -/
def encode
    (p : Point) : Bytes :=
  let i := Modular.inverse prime p.z
  let x := p.x * i % prime
  let y := p.y * i % prime
  BigEndian.ofNatLittle 32 (y + x % 2 * Nat.pow 2 255)

------------------------------------------------------------
-- Keys
------------------------------------------------------------

/- The multiplier that a secret means. -/
def multiplier
    (secret : Bytes) : Nat :=
  let n :=
    BigEndian.toNatLittle ((Sha512.hash secret).take 32)
  n % Nat.pow 2 254 / 8 * 8 + Nat.pow 2 254

/- The public key of a secret. -/
def publicKey
    (secret : Bytes) : Bytes :=
  encode (multiply base (multiplier secret))

end Edwards

end LocalCert
