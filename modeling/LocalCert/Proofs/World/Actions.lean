import LocalCert.Proofs.Results
import LocalCert.World
import Mathlib.Order.Defs.Unbundled

/-
  Running actions in a world, one lemma for each way to make
  one, and two ways to speak of all runs of an action: what
  a run keeps, for one world and the world after it, and
  what two runs share that start in related worlds.

  Main declarations:
    * `Act.runIn_bind`
    * `Act.Keeps`
    * `Act.Keeps.bind`
    * `Act.Relates`
    * `Act.Relates.bind`
-/

------------------------------------------------------------
-- Reporting
------------------------------------------------------------

namespace LocalCert

namespace World

@[simp] theorem report_files
    (w : World)
    (e : Event) :
    (w.report e).files = w.files := by
  unfold report
  split <;> rfl

@[simp] theorem report_cwd
    (w : World)
    (e : Event) :
    (w.report e).cwd = w.cwd := by
  unfold report
  split <;> rfl

@[simp] theorem report_script
    (w : World)
    (e : Event) :
    (w.report e).script = w.script := by
  unfold report
  split <;> rfl

@[simp] theorem report_calls
    (w : World)
    (e : Event) :
    (w.report e).calls = w.calls := by
  unfold report
  split <;> rfl

@[simp] theorem report_logger
    (w : World)
    (e : Event) :
    (w.report e).logger = w.logger := by
  unfold report
  split <;> rfl

@[simp] theorem report_faultsMet
    (w : World)
    (e : Event) :
    (w.report e).faultsMet = w.faultsMet := by
  unfold report
  split <;> rfl

theorem report_journal
    (w : World)
    (e : Event) :
    (w.report e).journal =
      w.journal ++
        if w.logger.isEnabled e.level then [e] else [] := by
  unfold report
  split <;> simp

end World

------------------------------------------------------------
-- Running
------------------------------------------------------------

namespace Act

variable {α β γ : Type}

@[simp] theorem runIn_pure
    (a : α)
    (w : World) :
    (pure a : Act α).runIn w = (.ok a, w) := rfl

@[simp] theorem runIn_of
    (f : World → Except Failure α × World)
    (w : World) :
    (Act.of f).runIn w = f w := rfl

@[simp] theorem runIn_fail
    (f : Failure)
    (w : World) :
    (Act.fail f : Act α).runIn w = (.error f, w) := rfl

@[simp] theorem runIn_look
    (f : World → α)
    (w : World) :
    (Act.look f).runIn w = (.ok (f w), w) := rfl

@[simp] theorem runIn_change
    (f : World → World)
    (w : World) :
    (Act.change f).runIn w = (.ok (), f w) := rfl

@[simp] theorem runIn_report
    (e : Event)
    (w : World) :
    (Act.report e).runIn w = (.ok (), w.report e) := rfl

theorem runIn_ensuring
    (act : Act α)
    (cleanUp : World → World)
    (w : World) :
    (Act.ensuring act cleanUp).runIn w =
      ((act.runIn w).1, cleanUp (act.runIn w).2) := rfl

theorem runIn_orElseWith
    (act : Act α)
    (handler : Failure → Act α)
    (w : World) :
    (Act.orElseWith act handler).runIn w =
      match act.runIn w with
      | (.ok a, after) => (.ok a, after)
      | (.error f, after) => (handler f).runIn after := rfl

/- A second action starts where a successful first ended. -/
theorem runIn_bind
    (act : Act α)
    (next : α → Act β)
    (w : World) :
    (act >>= next).runIn w =
      match act.runIn w with
      | (.ok a, after) => (next a).runIn after
      | (.error f, after) => (.error f, after) := by
  rcases hRun : act.runIn w with ⟨result, after⟩
  simp only [runIn, StateT.run, ExceptT.run] at hRun ⊢
  simp only [bind, ExceptT.bind, ExceptT.mk,
    StateT.bind, hRun]
  cases result <;> rfl

/- After a first action that succeeds. -/
theorem runIn_bind_ok
    {act : Act α}
    {next : α → Act β}
    {w after : World}
    {a : α}
    (hRun : act.runIn w = (.ok a, after)) :
    (act >>= next).runIn w = (next a).runIn after := by
  rw [runIn_bind, hRun]

/- After a first action that fails. -/
theorem runIn_bind_error
    {act : Act α}
    {next : α → Act β}
    {w after : World}
    {f : Failure}
    (hRun : act.runIn w = (.error f, after)) :
    (act >>= next).runIn w = (.error f, after) := by
  rw [runIn_bind, hRun]

/- Two actions that succeed, with the world in between. -/
theorem runIn_bind_eq_ok
    {act : Act α}
    {next : α → Act β}
    {w after : World}
    {b : β}
    (hRun : (act >>= next).runIn w = (.ok b, after)) :
    ∃ a made,
      act.runIn w = (.ok a, made) ∧
        (next a).runIn made = (.ok b, after) := by
  rw [runIn_bind] at hRun
  rcases hFirst : act.runIn w with ⟨result, made⟩
  rw [hFirst] at hRun
  cases result with
  | error f => cases hRun
  | ok a => exact ⟨a, made, rfl, hRun⟩

/- Of two actions the first fails, or the one after it. -/
theorem runIn_bind_eq_error
    {act : Act α}
    {next : α → Act β}
    {w after : World}
    {f : Failure}
    (hRun : (act >>= next).runIn w = (.error f, after)) :
    act.runIn w = (.error f, after) ∨
      ∃ a made,
        act.runIn w = (.ok a, made) ∧
          (next a).runIn made = (.error f, after) := by
  rw [runIn_bind] at hRun
  rcases hFirst : act.runIn w with ⟨result, made⟩
  rw [hFirst] at hRun
  cases result with
  | error g =>
      cases hRun
      exact .inl rfl
  | ok a => exact .inr ⟨a, made, rfl, hRun⟩

------------------------------------------------------------
-- What A Run Keeps
------------------------------------------------------------

/-
  Whether each world is related to the one that the action
  leaves.
-/
def Keeps
    (R : World → World → Prop)
    (act : Act α) : Prop :=
  ∀ w, R w (act.runIn w).2

namespace Keeps

variable {R : World → World → Prop}

theorem of
    {f : World → Except Failure α × World}
    (hStep : ∀ w, R w (f w).2) :
    Keeps R (Act.of f) :=
  hStep

theorem report
    {e : Event}
    (hStep : ∀ w, R w (w.report e)) :
    Keeps R (Act.report e) :=
  hStep

variable [IsPreorder World R]

theorem pure
    (a : α) :
    Keeps R (Pure.pure a : Act α) := by
  intro w
  exact refl_of R w

theorem fail
    (f : Failure) :
    Keeps R (Act.fail f : Act α) := by
  intro w
  exact refl_of R w

/- A run goes on as it started, if all that follows does. -/
theorem bind_at
    {act : Act α}
    {next : α → Act β}
    {w : World}
    (hFirst : R w (act.runIn w).2)
    (hNext : ∀ a, Keeps R (next a)) :
    R w ((act >>= next).runIn w).2 := by
  rw [runIn_bind]
  cases hRun : act.runIn w with
  | mk result after =>
      rw [hRun] at hFirst
      cases result with
      | error f => exact hFirst
      | ok a => exact trans_of R hFirst (hNext a after)

/- One action after another keeps what both keep. -/
theorem bind
    {act : Act α}
    {next : α → Act β}
    (hAct : Keeps R act)
    (hNext : ∀ a, Keeps R (next a)) :
    Keeps R (act >>= next) := by
  intro w
  exact bind_at (hAct w) hNext

/- What reporting keeps, telling of a value keeps. -/
theorem telling
    {e : Event}
    (hStep : ∀ w, R w (w.report e))
    (a : α) :
    Keeps R
      (do
        Act.report e
        return a) := by
  refine bind (report hStep) ?_
  intro _
  exact pure a

/- Cleaning up keeps what the action and it keep. -/
theorem ensuring
    {act : Act α}
    {cleanUp : World → World}
    (hAct : Keeps R act)
    (hCleanUp : ∀ w, R w (cleanUp w)) :
    Keeps R (Act.ensuring act cleanUp) := by
  intro w
  exact trans_of R (hAct w) (hCleanUp _)

/- A second attempt keeps what both attempts keep. -/
theorem orElseWith
    {act : Act α}
    {handler : Failure → Act α}
    (hAct : Keeps R act)
    (hHandler : ∀ f, Keeps R (handler f)) :
    Keeps R (Act.orElseWith act handler) := by
  intro w
  have hFirst := hAct w
  rw [runIn_orElseWith]
  cases hRun : act.runIn w with
  | mk result after =>
      rw [hRun] at hFirst
      cases result with
      | ok a => exact hFirst
      | error f => exact trans_of R hFirst (hHandler f after)

end Keeps

------------------------------------------------------------
-- What Two Runs Share
------------------------------------------------------------

/-
  Whether two actions, in related worlds, have results that
  match and leave related worlds.
-/
def Relates
    (R : World → World → Prop)
    (Q : α → β → Prop)
    (act : Act α)
    (twin : Act β) : Prop :=
  ∀ w v, R w v →
    Match Q (act.runIn w).1 (twin.runIn v).1 ∧
      R (act.runIn w).2 (twin.runIn v).2

namespace Relates

variable {R : World → World → Prop}
variable {Q : α → β → Prop}

theorem pure
    {a : α}
    {b : β}
    (hValues : Q a b) :
    Relates R Q (Pure.pure a) (Pure.pure b) := by
  intro w v hWorlds
  exact ⟨hValues, hWorlds⟩

theorem fail
    (f : Failure) :
    Relates R Q (Act.fail f) (Act.fail f) := by
  intro w v hWorlds
  exact ⟨rfl, hWorlds⟩

theorem of
    {f : World → Except Failure α × World}
    {g : World → Except Failure β × World}
    (hStep :
      ∀ w v, R w v →
        Match Q (f w).1 (g v).1 ∧ R (f w).2 (g v).2) :
    Relates R Q (Act.of f) (Act.of g) :=
  hStep

theorem look
    {f : World → α}
    {g : World → β}
    (hLook : ∀ w v, R w v → Q (f w) (g v)) :
    Relates R Q (Act.look f) (Act.look g) := by
  intro w v hWorlds
  exact ⟨hLook w v hWorlds, hWorlds⟩

/- Two runs go on as they started, if all that follows does. -/
theorem bind_at
    {δ : Type}
    {S : γ → δ → Prop}
    {act : Act α}
    {twin : Act β}
    {next : α → Act γ}
    {nextTwin : β → Act δ}
    {w v : World}
    (hFirst :
      Match Q (act.runIn w).1 (twin.runIn v).1 ∧
        R (act.runIn w).2 (twin.runIn v).2)
    (hNext :
      ∀ a b, Q a b → Relates R S (next a) (nextTwin b)) :
    Match S ((act >>= next).runIn w).1
        ((twin >>= nextTwin).runIn v).1 ∧
      R ((act >>= next).runIn w).2
        ((twin >>= nextTwin).runIn v).2 := by
  rw [runIn_bind, runIn_bind]
  rcases hRun : act.runIn w with ⟨result, after⟩
  rcases hTwin : twin.runIn v with ⟨twinResult, twinAfter⟩
  rw [hRun, hTwin] at hFirst
  rcases hFirst with ⟨hResults, hAfter⟩
  simp only at hResults hAfter
  rcases hResults.cases with
    ⟨f, rfl, rfl⟩ | ⟨a, b, rfl, rfl, hValues⟩
  · exact ⟨rfl, hAfter⟩
  · exact hNext a b hValues _ _ hAfter

/- One action after another. -/
theorem bind
    {δ : Type}
    {S : γ → δ → Prop}
    {act : Act α}
    {twin : Act β}
    {next : α → Act γ}
    {nextTwin : β → Act δ}
    (hAct : Relates R Q act twin)
    (hNext :
      ∀ a b, Q a b → Relates R S (next a) (nextTwin b)) :
    Relates R S (act >>= next) (twin >>= nextTwin) := by
  intro w v hWorlds
  exact bind_at (hAct w v hWorlds) hNext

/- Telling of values that are related. -/
theorem telling
    {e : Event}
    {a : α}
    {b : β}
    (hStep : Relates R Eq (Act.report e) (Act.report e))
    (hValues : Q a b) :
    Relates R Q
      (do
        Act.report e
        return a)
      (do
        Act.report e
        return b) := by
  refine bind hStep ?_
  intro _ _ _
  exact pure hValues

/- Cleaning up in both worlds. -/
theorem ensuring
    {act : Act α}
    {twin : Act β}
    {cleanUp cleanUpTwin : World → World}
    (hAct : Relates R Q act twin)
    (hCleanUp :
      ∀ w v, R w v → R (cleanUp w) (cleanUpTwin v)) :
    Relates R Q (Act.ensuring act cleanUp)
      (Act.ensuring twin cleanUpTwin) := by
  intro w v hWorlds
  rcases hAct w v hWorlds with ⟨hResults, hAfter⟩
  exact ⟨hResults, hCleanUp _ _ hAfter⟩

/- A second attempt after the same failure. -/
theorem orElseWith
    {act : Act α}
    {twin : Act β}
    {handler : Failure → Act α}
    {handlerTwin : Failure → Act β}
    (hAct : Relates R Q act twin)
    (hHandler :
      ∀ f, Relates R Q (handler f) (handlerTwin f)) :
    Relates R Q (Act.orElseWith act handler)
      (Act.orElseWith twin handlerTwin) := by
  intro w v hWorlds
  have hFirst := hAct w v hWorlds
  rw [runIn_orElseWith, runIn_orElseWith]
  rcases hRun : act.runIn w with ⟨result, after⟩
  rcases hTwin : twin.runIn v with ⟨twinResult, twinAfter⟩
  rw [hRun, hTwin] at hFirst
  rcases hFirst with ⟨hResults, hAfter⟩
  simp only at hResults hAfter
  rcases hResults.cases with
    ⟨f, rfl, rfl⟩ | ⟨a, b, rfl, rfl, hValues⟩
  · exact hHandler f _ _ hAfter
  · exact ⟨hValues, hAfter⟩

end Relates

end Act

end LocalCert
