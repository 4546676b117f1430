import LocalCert.Key.Modular

/-
  The test for primes: no small base may show that a number
  is composite, and neither may a sequence of Lucas.  No
  composite number is known that passes both.

  Key definitions include:
    * `Primality.isWitness`
    * `Primality.jacobi`
    * `Primality.passesLucas`
    * `Primality.isProbablyPrime`
-/

------------------------------------------------------------
-- Small Bases
------------------------------------------------------------

namespace LocalCert

namespace Primality

/- The twos in a number, and what is left without them. -/
def splitTwos
    (fuel : Nat)
    (n : Nat) : Nat × Nat :=
  match fuel with
  | 0 => (0, n)
  | fuel + 1 =>
      if n % 2 == 0 then
        let (twos, odd) := splitTwos fuel (n / 2)
        (twos + 1, odd)
      else
        (0, n)

/- Whether squaring so often leads to minus one. -/
def reachesMinusOne
    (n : Nat)
    (times x : Nat) : Bool :=
  match times with
  | 0 => false
  | times + 1 =>
      x == n - 1 || reachesMinusOne n times (x * x % n)

/- Whether a base shows that a number is composite. -/
def isWitness
    (n twos odd base : Nat) : Bool :=
  let x := Modular.power n base odd
  !(x == 1 || reachesMinusOne n twos x)

/- The bases with which numbers are tested. -/
def bases : List Nat :=
  [2, 3, 5, 7, 11, 13, 17, 19, 23, 29, 31, 37]

/- Whether no base shows that an odd number is composite. -/
def passesBases
    (n : Nat) : Bool :=
  let (twos, odd) := splitTwos n.log2 (n - 1)
  !bases.any (isWitness n twos odd)

------------------------------------------------------------
-- Sequences Of Lucas
------------------------------------------------------------

/-
  The symbol of Jacobi of a number over an odd one, with
  fuel for the steps of a greatest common divisor.
-/
def jacobi
    (fuel : Nat)
    (a n : Nat) : Int :=
  match fuel with
  | 0 => 0
  | fuel + 1 =>
      let r := a % n
      if r == 0 then
        if n == 1 then 1 else 0
      else
        let (twos, odd) := splitTwos r.log2 r
        let byTwos :=
          twos % 2 == 1 && (n % 8 == 3 || n % 8 == 5)
        let byOdds := odd % 4 == 3 && n % 4 == 3
        let rest := jacobi fuel n odd
        if byTwos == byOdds then rest else -rest

/- An integer modulo a number. -/
def residue
    (n : Nat)
    (i : Int) : Nat :=
  (i % Int.ofNat n).toNat

/- The numbers five, minus seven, nine and so on. -/
def discriminant
    (i : Nat) : Int :=
  let size := Int.ofNat (2 * i + 5)
  if i % 2 == 0 then size else -size

/- The first of these numbers whose symbol is minus one. -/
def findDiscriminant?
    (n : Nat) : Option Int :=
  ((List.range 256).map discriminant).find?
    (fun d => jacobi (2 * n.log2 + 4) (residue n d) n == -1)

/- Half of a number modulo an odd one. -/
def half
    (n x : Nat) : Nat :=
  if x % 2 == 0 then x / 2 else (x + n) / 2 % n

/- Both terms of a place, and the power of the product. -/
structure Terms where
  u : Nat
  v : Nat
  q : Nat
  deriving DecidableEq, Repr

/- The terms of the double place. -/
def Terms.double
    (n : Nat)
    (t : Terms) : Terms :=
  ⟨t.u * t.v % n,
    Modular.sub n (t.v * t.v) (2 * t.q),
    t.q * t.q % n⟩

/- The terms of the next place. -/
def Terms.next
    (n d q : Nat)
    (t : Terms) : Terms :=
  ⟨half n ((t.u + t.v) % n),
    half n ((d * t.u + t.v) % n),
    t.q * q % n⟩

/- The terms of a place, by doubling. -/
def terms
    (n d q : Nat)
    (place : Nat) : Terms :=
  if place == 0 then
    ⟨0, 2, 1⟩
  else
    let twice := (terms n d q (place / 2)).double n
    if place % 2 == 0 then twice else twice.next n d q
termination_by place
decreasing_by
  rename_i h
  have : place ≠ 0 := by simpa using h
  omega

/- Whether doubling so often leads to a term of zero. -/
def reachesZero
    (n : Nat)
    (times : Nat)
    (t : Terms) : Bool :=
  match times with
  | 0 => false
  | times + 1 =>
      t.v == 0 || reachesZero n times (t.double n)

/-
  Whether the sequence of an odd number does not show that
  it is composite.  Squares have no sequence.
-/
def passesLucas
    (n : Nat) : Bool :=
  match findDiscriminant? n with
  | none => false
  | some d =>
      let (twos, odd) := splitTwos (n + 1).log2 (n + 1)
      let t :=
        terms n (residue n d) (residue n ((1 - d) / 4)) odd
      t.u == 0 || reachesZero n twos t

------------------------------------------------------------
-- Primes
------------------------------------------------------------

/-
  Whether no test shows that a number is composite.  Below a
  bound the bases alone are enough.
-/
def isProbablyPrime
    (n : Nat) : Bool :=
  if n < 2 then
    false
  else if bases.contains n then
    true
  else if n % 2 == 0 || !passesBases n then
    false
  else
    n < Nat.pow 2 64 || passesLucas n

end Primality

end LocalCert
