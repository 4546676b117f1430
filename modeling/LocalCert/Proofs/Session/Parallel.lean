import LocalCert.Proofs.Session.Restoring
import LocalCert.Proofs.Session.Steps
import LocalCert.Proofs.World.Chronicle

/-
  Sessions in two worlds that differ in their chronicles.
  As long as the level of the logger is left alone, every
  step gives the same and adds the same to both; given
  answers depend on the calls so far, and on nothing else
  that a chronicle keeps.

  Main declarations:
    * `Session.Step.SetsLevel`
    * `Session.parallel_request`
    * `Session.parallel_step`
    * `Session.parallel_run`
-/

------------------------------------------------------------
-- Requests
------------------------------------------------------------

namespace LocalCert

namespace Session

open World (Parallel)

variable {g h : Chronicle}
variable {w v : World}
variable {keeper : Keeper}

/- The calls so far matter to given answers only. -/
theorem parallel_request
    (hKeeper : keeper.Known)
    (hCalls : keeper ≠ .fresh → h.calls = g.calls)
    (hostname : String)
    (hWorlds : Parallel g h w v) :
    Match Eq
        ((request keeper hostname w).runIn w).1
        ((request keeper hostname v).runIn v).1 ∧
      Parallel g h
        ((request keeper hostname w).runIn w).2
        ((request keeper hostname v).runIn v).2 := by
  cases keeper with
  | kept p =>
      have hSame : h.calls = g.calls := hCalls (by simp)
      refine Provisioner.relates_provision
        Act.parallel_report ?_ w v hWorlds
      intro s hs hostname
      cases hKeeper s hs with
      | trusted =>
          exact Strategy.parallel_trusted
            (fun _ _ => rfl) hostname
      | manual =>
          exact Strategy.parallel_manual
            (fun _ _ => rfl) hostname
      | scripted position a =>
          exact Strategy.parallel_scripted hSame position a
            hostname
  | fresh =>
      have hConfig : v.config = w.config := by
        rcases hWorlds with ⟨s, _, rfl⟩
        rfl
      simp only [request, hConfig]
      exact Provisioner.parallel_provision
        (fun _ _ => rfl) hostname w v hWorlds

------------------------------------------------------------
-- Steps
------------------------------------------------------------

/- Whether a step sets the level of the logger. -/
def Step.SetsLevel : Step → Prop
  | .setLevel _ => True
  | _ => False

theorem parallel_issued
    {act twin : Act Material}
    (hActs :
      Match Eq (act.runIn w).1 (twin.runIn v).1 ∧
        Parallel g h (act.runIn w).2 (twin.runIn v).2) :
    (issued twin v).1 = (issued act w).1 ∧
      Parallel g h (issued act w).2 (issued twin v).2 := by
  rcases hActs with ⟨hResults, hAfter⟩
  rw [issued_eq, issued_eq]
  exact ⟨congrArg told hResults.eq.symm, hAfter⟩

theorem parallel_step
    {s : Step}
    (hKeeper : keeper.Known)
    (hCalls : keeper ≠ .fresh → h.calls = g.calls)
    (hLevel : ¬ s.SetsLevel)
    (hWorlds : Parallel g h w v) :
    (step keeper s v).1 = (step keeper s w).1 ∧
      Parallel g h (step keeper s w).2
        (step keeper s v).2 := by
  cases s with
  | provision hostname =>
      simp only [step]
      apply parallel_issued
      exact parallel_request hKeeper hCalls _ hWorlds
  | trusted hostname =>
      simp only [step]
      apply parallel_issued
      exact Strategy.parallel_trusted (fun _ _ => rfl)
        hostname w v hWorlds
  | manual hostname =>
      simp only [step]
      apply parallel_issued
      exact Strategy.parallel_manual (fun _ _ => rfl)
        hostname w v hWorlds
  | assign settings =>
      refine ⟨rfl, ?_⟩
      exact hWorlds.change
        (f := fun u =>
          { u with config := u.config.assignAll settings })
        (fun _ _ => rfl)
  | setLevel level => exact (hLevel trivial).elim
  | addBehaviours behaviours =>
      refine ⟨rfl, ?_⟩
      exact hWorlds.change
        (f := fun u =>
          { u with script := u.script ++ behaviours })
        (fun _ _ => rfl)
  | setRemovalFault words =>
      refine ⟨rfl, ?_⟩
      exact hWorlds.change (f := World.setRemovalFault words)
        (fun _ _ => rfl)

/- Runs that leave the level of the logger alone. -/
theorem parallel_run
    {steps : List Step}
    (hKeeper : keeper.Known)
    (hCalls : keeper ≠ .fresh → h.calls = g.calls)
    (hLevels : ∀ s ∈ steps, ¬ s.SetsLevel)
    (hWorlds : Parallel g h w v) :
    List.Forall₂
      (fun r q => q.1 = r.1 ∧ Parallel g h r.2 q.2)
      (run keeper steps w) (run keeper steps v) := by
  induction steps generalizing w v with
  | nil => exact .nil
  | cons s ss ih =>
      have hStep :=
        parallel_step hKeeper hCalls
          (hLevels s List.mem_cons_self) hWorlds
      rw [run_cons, run_cons]
      refine .cons hStep (ih ?_ hStep.2)
      intro x hx
      exact hLevels x (List.mem_cons_of_mem s hx)

end Session

end LocalCert
