import LocalCert.World

/-
  Strategies: named ways of issuing material for a hostname.

  Key definitions include:
    * `Strategy`
    * `Strategy.Answers`
    * `Strategy.scripted`
-/

------------------------------------------------------------
-- Strategies
------------------------------------------------------------

namespace LocalCert

/- A way of issuing material for a hostname. -/
structure Strategy where
  name : String
  issue : String → Act Material

namespace Strategy

------------------------------------------------------------
-- Strategies With Given Answers
------------------------------------------------------------

/- A strategy's answers to the calls of it, in order. -/
structure Answers where
  name : String
  answers : List (Except Failure Material)

/- The answer to the n-th call; the last one repeats. -/
def Answers.at
    (a : Answers)
    (n : Nat) : Except Failure Material :=
  match a.answers[n]? with
  | some answer => answer
  | none =>
      match a.answers.getLast? with
      | some answer => answer
      | none => .error .emptyCommand

/- Whether a call went to the strategy at a position. -/
def isCallTo
    (position : Nat) : Call → Bool
  | .strategy p _ _ => p == position
  | .process _ _ _ _ => false

/- The strategy at a position that gives given answers. -/
def scripted
    (position : Nat)
    (a : Answers) : Strategy where
  name := a.name
  issue := fun hostname =>
    Act.of (fun w =>
      let n := w.calls.countP (isCallTo position)
      (a.at n, w.note (.strategy position a.name hostname)))

end Strategy

end LocalCert
