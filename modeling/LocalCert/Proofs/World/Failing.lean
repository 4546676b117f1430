import LocalCert.Proofs.Tool.Sequence
import LocalCert.Proofs.Session.Restoring
import LocalCert.Proofs.Workspace.Reading

/-
  In which ways actions can fail.  As long as every tool
  ends in an ordinary way, getting a pair fails in orderly
  ways only: as provisioning does, or for a wrong value.

  Main declarations:
    * `Act.FailsOnly`
    * `Failure.IsOrderly`
    * `Tool.failsOnly_run`
    * `Workspace.failsOnly_within`
    * `Provisioner.failsOnly_provision`
-/

------------------------------------------------------------
-- Rules
------------------------------------------------------------

namespace LocalCert

/- Whether every tool to come ends in an ordinary way. -/
def World.Ordinary
    (w : World) : Prop :=
  ∀ b ∈ w.script, b.ending.isOrdinary = true

namespace World

variable {w v : World}

theorem Ordinary.of_leads
    (hOrdinary : w.Ordinary)
    (hLeads : w.Leads v) :
    v.Ordinary := by
  intro b hb
  exact hOrdinary b (hLeads.script.mem hb)

/- The usual behaviour is an ordinary one. -/
theorem Ordinary.behaviourAt
    (hOrdinary : w.Ordinary)
    (n : Nat) :
    (w.behaviourAt n).ending.isOrdinary = true := by
  rcases List.mem_cons.mp (w.behaviourAt_mem n) with
    hUsual | hScript
  · rw [hUsual]
    rfl
  · exact hOrdinary _ hScript

end World

namespace Act

variable {α β : Type}
variable {P : Failure → Prop}

/-
  Whether an action, where tools end in ordinary ways, fails
  in some ways only, and tools go on to end so.
-/
def FailsOnly
    (P : Failure → Prop)
    (act : Act α) : Prop :=
  ∀ w : World,
    w.Ordinary →
    (act.runIn w).2.Ordinary ∧
      ∀ f, (act.runIn w).1 = .error f → P f

namespace FailsOnly

theorem of_leads
    {act : Act α}
    (hLeads : Act.Keeps World.Leads act)
    (hFails :
      ∀ w f,
        w.Ordinary →
        (act.runIn w).1 = .error f →
        P f) :
    FailsOnly P act := by
  intro w hOrdinary
  refine ⟨hOrdinary.of_leads (hLeads w), ?_⟩
  intro f
  exact hFails w f hOrdinary

theorem pure
    (a : α) :
    FailsOnly P (Pure.pure a : Act α) := by
  intro w hOrdinary
  exact ⟨hOrdinary, by simp⟩

theorem fail
    {f : Failure}
    (hHere : P f) :
    FailsOnly P (Act.fail f : Act α) := by
  intro w hOrdinary
  refine ⟨hOrdinary, ?_⟩
  rintro _ ⟨⟩
  exact hHere

theorem look
    (f : World → α) :
    FailsOnly P (Act.look f) := by
  intro w hOrdinary
  exact ⟨hOrdinary, by simp⟩

theorem report
    (e : Event) :
    FailsOnly P (Act.report e) := by
  intro w hOrdinary
  refine ⟨?_, by simp⟩
  exact hOrdinary.of_leads (World.leads_report w e)

/- Either the first action fails, or the one after it. -/
theorem bind
    {act : Act α}
    {next : α → Act β}
    (hFirst : FailsOnly P act)
    (hNext : ∀ a, FailsOnly P (next a)) :
    FailsOnly P (act >>= next) := by
  intro w hOrdinary
  rcases hFirst w hOrdinary with ⟨hAfter, hFails⟩
  rw [runIn_bind]
  rcases hRun : act.runIn w with ⟨result, after⟩
  rw [hRun] at hAfter hFails
  cases result with
  | error f =>
      refine ⟨hAfter, ?_⟩
      rintro _ ⟨⟩
      exact hFails f rfl
  | ok a => exact hNext a after hAfter

/- Telling of a value does not fail. -/
theorem telling
    (e : Event)
    (a : α) :
    FailsOnly P
      (do
        Act.report e
        return a) := by
  refine bind (report e) ?_
  intro _
  exact pure a

/- Cleaning up does not fail. -/
theorem ensuring
    {act : Act α}
    {cleanUp : World → World}
    (hAct : FailsOnly P act)
    (hCleanUp : ∀ w : World, w.Leads (cleanUp w)) :
    FailsOnly P (Act.ensuring act cleanUp) := by
  intro w hOrdinary
  rcases hAct w hOrdinary with ⟨hAfter, hFails⟩
  exact ⟨hAfter.of_leads (hCleanUp _), hFails⟩

/- A second attempt, if it comes to that. -/
theorem orElseWith
    {act : Act α}
    {handler : Failure → Act α}
    (hAct : FailsOnly P act)
    (hHandler : ∀ f, P f → FailsOnly P (handler f)) :
    FailsOnly P (Act.orElseWith act handler) := by
  intro w hOrdinary
  rcases hAct w hOrdinary with ⟨hAfter, hFails⟩
  rw [runIn_orElseWith]
  rcases hRun : act.runIn w with ⟨result, after⟩
  rw [hRun] at hAfter hFails
  cases result with
  | ok a => exact ⟨hAfter, by simp⟩
  | error f =>
      exact hHandler f (hFails f rfl) after hAfter

end FailsOnly

end Act

------------------------------------------------------------
-- Orderly Failures
------------------------------------------------------------

/- A failure of provisioning, or of a wrong value. -/
def Failure.IsOrderly
    (f : Failure) : Prop :=
  f.kind.isA .provisioning = true ∨
    f.kind.isA .value = true

theorem Failure.isOrderly_of_workspace
    {f : Failure}
    (hKind : f.kind = .workspace) :
    f.IsOrderly := by
  rw [IsOrderly, hKind]
  decide

theorem Failure.isOrderly_tool
    (t : ToolFailure) :
    (Failure.tool t).IsOrderly := by
  rw [IsOrderly, kind]
  cases t.stage <;> decide

namespace Tool

/- A command that is not empty. -/
theorem failsOnly_run
    {c : Command}
    (hSome : c.argv ≠ []) :
    Act.FailsOnly Failure.IsOrderly (run c) := by
  apply Act.FailsOnly.of_leads (keeps_leads_run c)
  intro w f hOrdinary hFails
  cases hArgv : c.argv with
  | nil => exact (hSome hArgv).elim
  | cons tool rest =>
      have hEnding := hOrdinary.behaviourAt 0
      rw [(run_spec hArgv w).1] at hFails
      cases hDone : succeeded (w.behaviourAt 0).ending with
      | true =>
          rcases outcome_of_succeeded c tool hDone with
            ⟨done, hOutcome⟩
          rw [hOutcome] at hFails
          cases hFails
      | false =>
          rcases outcome_of_failed c tool hDone hEnding with
            ⟨t, hOutcome, _⟩
          rw [hOutcome] at hFails
          cases hFails
          exact Failure.isOrderly_tool t

end Tool

namespace Workspace

theorem isOrderly_readText
    {w : World}
    {path : String}
    {f : Failure}
    (hRead : readText w path = .error f) :
    f.IsOrderly := by
  cases hNul : hasNul path with
  | false =>
      exact Failure.isOrderly_of_workspace
        (kind_readText hNul hRead)
  | true =>
      rw [readText, if_pos hNul] at hRead
      cases hRead
      exact .inr (by decide)

theorem failsOnly_readMaterial
    (keyPath certPath : String) :
    Act.FailsOnly Failure.IsOrderly
      (readMaterial keyPath certPath) := by
  apply Act.FailsOnly.of_leads
    (keeps_readMaterial keyPath certPath)
  intro w f _ hFails
  rw [readMaterial, Act.runIn_of] at hFails
  cases hKey : readText w keyPath with
  | error g =>
      simp only [hKey, Except.error.injEq] at hFails
      subst hFails
      exact isOrderly_readText hKey
  | ok key =>
      cases hCert : readText w certPath with
      | error g =>
          simp only [hKey, hCert,
            Except.error.injEq] at hFails
          subst hFails
          exact isOrderly_readText hCert
      | ok cert => simp [hKey, hCert] at hFails

theorem failsOnly_create
    (start : String)
    (parent : Option Path) :
    Act.FailsOnly Failure.IsOrderly
      (create start parent) := by
  apply Act.FailsOnly.of_leads
    (keeps_leads_create start parent)
  intro w f _ hFails
  rcases hRun : (create start parent).runIn w with
    ⟨result, after⟩
  rw [hRun] at hFails
  subst hFails
  rcases (create_eq_error hRun).2 with hKind | ⟨rfl, _⟩
  · exact Failure.isOrderly_of_workspace hKind
  · exact .inr (by decide)

theorem failsOnly_within
    {α : Type}
    {start : String}
    {parent : Option Path}
    {body : Path → Act α}
    (hBody :
      ∀ path,
        Act.FailsOnly Failure.IsOrderly (body path)) :
    Act.FailsOnly Failure.IsOrderly
      (within start parent body) := by
  refine Act.FailsOnly.bind (failsOnly_create _ _) ?_
  intro path
  exact Act.FailsOnly.ensuring (hBody path)
    (leads_close path)

end Workspace

------------------------------------------------------------
-- Strategies
------------------------------------------------------------

theorem Trusted.failsOnly_issue
    (config : Config)
    (hostname : String) :
    Act.FailsOnly Failure.IsOrderly
      (issue config hostname) := by
  refine Act.FailsOnly.bind
    (Workspace.failsOnly_within ?_) ?_
  · intro ws
    refine Act.FailsOnly.bind (Tool.failsOnly_run ?_) ?_
    · simp [command]
    · intro _
      exact Workspace.failsOnly_readMaterial _ _
  · intro m
    exact Act.FailsOnly.telling _ m

theorem Manual.failsOnly_issue
    (config : Config)
    (hostname : String) :
    Act.FailsOnly Failure.IsOrderly
      (issue config hostname) := by
  refine Act.FailsOnly.bind
    (Workspace.failsOnly_within ?_) ?_
  · intro ws
    refine Act.FailsOnly.bind (Tool.failsOnly_run ?_) ?_
    · simp [keyCommand]
    · intro _
      refine Act.FailsOnly.bind (Tool.failsOnly_run ?_) ?_
      · simp [requestCommand]
      · intro _
        refine Act.FailsOnly.bind (Tool.failsOnly_run ?_) ?_
        · simp [signCommand]
        · intro _
          exact Workspace.failsOnly_readMaterial _ _
  · intro m
    exact Act.FailsOnly.telling _ m

namespace Provisioner

/- What each strategy fails in, all of them fail in. -/
theorem failsOnly_tryEach
    {P : Failure → Prop}
    {hostname : String}
    {last : Strategy}
    {strategies : List Strategy}
    (hEach :
      ∀ s ∈ strategies ++ [last],
        Act.FailsOnly P (s.issue hostname)) :
    Act.FailsOnly P
      (tryEach hostname last strategies) := by
  induction strategies with
  | nil => exact hEach last (by simp)
  | cons s ss ih =>
      have hRest := ih (fun x hx => hEach x (by simp [hx]))
      apply Act.FailsOnly.orElseWith (hEach s (by simp))
      intro f hFails
      split
      · exact Act.FailsOnly.bind (Act.FailsOnly.report _)
          (fun _ => hRest)
      · exact Act.FailsOnly.fail hFails

/- A hostname that does not pass is a wrong value. -/
theorem failsOnly_provision
    (config : World → Config)
    (hostname : String) :
    Act.FailsOnly Failure.IsOrderly
      ((standard config).provision hostname) := by
  unfold provision
  cases Hostname.validate hostname with
  | error d => exact Act.FailsOnly.fail (.inr rfl)
  | ok h =>
      apply failsOnly_tryEach
      apply forall_standard
      · exact Act.FailsOnly.bind (Act.FailsOnly.look config)
          (fun c => Trusted.failsOnly_issue c h)
      · exact Act.FailsOnly.bind (Act.FailsOnly.look config)
          (fun c => Manual.failsOnly_issue c h)

end Provisioner

end LocalCert
