import LocalCert.Encoding.BigEndian
import LocalCert.Key.Modular

/-
  Elliptic curves in short form over a prime field, with
  points in projective coordinates.

  Key definitions include:
    * `Curve`
    * `Curve.add`
    * `Curve.multiply`
    * `Curve.decodePoint?`
    * `Curve.encodePoint`
-/

------------------------------------------------------------
-- Curves
------------------------------------------------------------

namespace LocalCert

/-
  The curve `y² = x³ + a x + b` modulo a prime, with a base
  point of prime order.
-/
structure Curve where
  identifier : Bytes
  prime : Nat
  a : Nat
  b : Nat
  baseX : Nat
  baseY : Nat
  order : Nat
  deriving DecidableEq, Repr

namespace Curve

/- The number of bytes of a coordinate. -/
def width
    (c : Curve) : Nat :=
  BigEndian.width c.prime

/- The right side of the equation of a curve. -/
def rightSide
    (c : Curve)
    (x : Nat) : Nat :=
  (x * x % c.prime * x + c.a * x + c.b) % c.prime

/- Whether a point lies on a curve. -/
def contains
    (c : Curve)
    (x y : Nat) : Bool :=
  x < c.prime && y < c.prime &&
    y * y % c.prime == c.rightSide x

------------------------------------------------------------
-- Points
------------------------------------------------------------

/-
  A point whose coordinates are `x / z²` and `y / z³`; the
  point at infinity has the `z` zero.
-/
structure Point where
  x : Nat
  y : Nat
  z : Nat
  deriving DecidableEq, Repr

/- The point at infinity. -/
def infinity : Point := ⟨1, 1, 0⟩

/- The sum of a point with itself. -/
def double
    (c : Curve)
    (p : Point) : Point :=
  if p.z == 0 || p.y == 0 then
    infinity
  else
    let m := c.prime
    let yy := p.y * p.y % m
    let s := 4 * p.x * yy % m
    let zz := p.z * p.z % m
    let t := (3 * p.x * p.x + c.a * (zz * zz % m)) % m
    let x := Modular.sub m (t * t) (2 * s)
    let y :=
      Modular.sub m (t * Modular.sub m s x) (8 * yy * yy)
    ⟨x, y, 2 * p.y * p.z % m⟩

/- The sum of two points. -/
def add
    (c : Curve)
    (p q : Point) : Point :=
  if p.z == 0 then
    q
  else if q.z == 0 then
    p
  else
    let m := c.prime
    let pp := p.z * p.z % m
    let qq := q.z * q.z % m
    let u := p.x * qq % m
    let v := q.x * pp % m
    let s := p.y * qq % m * q.z % m
    let t := q.y * pp % m * p.z % m
    if u == v then
      if s == t then c.double p else infinity
    else
      let h := Modular.sub m v u
      let r := Modular.sub m t s
      let hh := h * h % m
      let hhh := hh * h % m
      let uhh := u * hh % m
      let x := Modular.sub m (r * r) (hhh + 2 * uhh)
      let y :=
        Modular.sub m (r * Modular.sub m uhh x) (s * hhh)
      ⟨x, y, h * p.z % m * q.z % m⟩

/- A multiple of a point, by doubling. -/
def multiply
    (c : Curve)
    (p : Point)
    (k : Nat) : Point :=
  if k == 0 then
    infinity
  else
    let twice := c.double (multiply c p (k / 2))
    if k % 2 == 0 then twice else c.add twice p
termination_by k
decreasing_by
  rename_i h
  have : k ≠ 0 := by simpa using h
  omega

/- The coordinates of a point that is not at infinity. -/
def coordinates?
    (c : Curve)
    (p : Point) : Option (Nat × Nat) :=
  if p.z == 0 then
    none
  else
    let i := Modular.inverse c.prime p.z
    let ii := i * i % c.prime
    some (p.x * ii % c.prime,
      p.y * (ii * i % c.prime) % c.prime)

/- The multiple of the base point. -/
def public?
    (c : Curve)
    (k : Nat) : Option (Nat × Nat) :=
  c.coordinates? (c.multiply ⟨c.baseX, c.baseY, 1⟩ k)

------------------------------------------------------------
-- Points As Bytes
------------------------------------------------------------

/-
  The coordinate that belongs to a given one; the primes of
  the named curves leave three when divided by four.
-/
def otherCoordinate?
    (c : Curve)
    (x : Nat)
    (odd : Bool) : Option Nat :=
  let square := c.rightSide x
  let root :=
    Modular.power c.prime square ((c.prime + 1) / 4)
  if c.prime ≤ x || root * root % c.prime != square then
    none
  else if (root % 2 == 1) == odd then
    some root
  else if root == 0 then
    none
  else
    some (c.prime - root)

/-
  A point from bytes: both coordinates, or one of them with
  the parity of the other, or both with that parity.
-/
def decodePoint?
    (c : Curve)
    (bytes : Bytes) : Option (Nat × Nat) :=
  match bytes with
  | [] => none
  | form :: rest =>
      let x := BigEndian.toNat (rest.take c.width)
      let y := BigEndian.toNat (rest.drop c.width)
      let odd := form % 2 == 1
      if form == 2 || form == 3 then
        if rest.length == c.width then
          (c.otherCoordinate? x odd).map (fun y => (x, y))
        else
          none
      else if form == 4 || form == 6 || form == 7 then
        if rest.length != 2 * c.width || !c.contains x y then
          none
        else if form != 4 && (y % 2 == 1) != odd then
          none
        else
          some (x, y)
      else
        none

/- A point as bytes, with both coordinates. -/
def encodePoint
    (c : Curve)
    (x y : Nat) : Bytes :=
  4 :: (BigEndian.ofNat c.width x ++
    BigEndian.ofNat c.width y)

end Curve

end LocalCert
