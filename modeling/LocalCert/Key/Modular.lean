/-
  Arithmetic on whole numbers modulo a number.

  Key definitions include:
    * `Modular.power`
    * `Modular.inverse`
    * `Modular.sub`
-/

------------------------------------------------------------
-- Modular Arithmetic
------------------------------------------------------------

namespace LocalCert

namespace Modular

/- A power, by squaring. -/
def power
    (m base : Nat)
    (exponent : Nat) : Nat :=
  if exponent == 0 then
    1 % m
  else
    let half := power m base (exponent / 2)
    let square := half * half % m
    if exponent % 2 == 0 then square
    else square * base % m
termination_by exponent
decreasing_by
  rename_i h
  have : exponent ≠ 0 := by simpa using h
  omega

/- The inverse modulo a prime. -/
def inverse
    (p a : Nat) : Nat :=
  power p a (p - 2)

/- A difference. -/
def sub
    (m a b : Nat) : Nat :=
  (a + (m - b % m)) % m

end Modular

end LocalCert
