import LocalCert.Session

/-
  The steps of a session: what a step of issuing gives in
  terms of its action, and how a property of single steps
  becomes one of whole runs.

  Main declarations:
    * `Session.told`
    * `Session.issued_eq`
    * `Session.Follows`
    * `Session.run_follows`
    * `Session.run_follows_of`
-/

------------------------------------------------------------
-- Single Steps
------------------------------------------------------------

namespace LocalCert

namespace Session

/- The result of a step whose action has a given result. -/
def told :
    Except Failure Material →
      Except Error (Option Material)
  | .ok m => .ok (some m)
  | .error f => .error (.failure f)

theorem issued_eq
    (act : Act Material)
    (w : World) :
    issued act w =
      (told (act.runIn w).1, (act.runIn w).2) := by
  unfold issued
  cases act.runIn w with
  | mk result after => cases result <;> rfl

------------------------------------------------------------
-- Runs
------------------------------------------------------------

theorem run_cons
    (keeper : Keeper)
    (s : Step)
    (ss : List Step)
    (w : World) :
    run keeper (s :: ss) w =
      step keeper s w ::
        run keeper ss (step keeper s w).2 := rfl

/-
  Whether each result of a run is related to its step and to
  the world before it.
-/
def Follows
    (R :
      World → Step →
        Except Error (Option Material) × World → Prop) :
    World → List Step →
      List (Except Error (Option Material) × World) → Prop
  | _, [], [] => True
  | w, s :: ss, r :: rs => R w s r ∧ Follows R r.2 ss rs
  | _, _, _ => False

/- What every step does, every step of a run does. -/
theorem run_follows
    {R :
      World → Step →
        Except Error (Option Material) × World → Prop}
    {keeper : Keeper}
    (hStep : ∀ w s, R w s (step keeper s w))
    (steps : List Step)
    (w : World) :
    Follows R w steps (run keeper steps w) := by
  induction steps generalizing w with
  | nil => trivial
  | cons s ss ih =>
      rw [run_cons]
      exact ⟨hStep w s, ih _⟩

/-
  What a step does to a world of some kind, every step of a
  run does, if the world that it leaves is of that kind.
-/
theorem run_follows_of
    {P R :
      World → Step →
        Except Error (Option Material) × World → Prop}
    {keeper : Keeper}
    {steps : List Step}
    {w : World}
    (Inv : World → Prop)
    (hStep :
      ∀ v s,
        Inv v →
        P v s (step keeper s v) →
        R v s (step keeper s v) ∧ Inv (step keeper s v).2)
    (hInv : Inv w)
    (hRun : Follows P w steps (run keeper steps w)) :
    Follows R w steps (run keeper steps w) := by
  induction steps generalizing w with
  | nil => trivial
  | cons s ss ih =>
      rw [run_cons] at hRun ⊢
      rcases hStep w s hInv hRun.1 with ⟨hOne, hNext⟩
      exact ⟨hOne, ih hNext hRun.2⟩

end Session

end LocalCert
