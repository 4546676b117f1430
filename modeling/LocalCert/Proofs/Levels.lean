import LocalCert.Proofs.CommandLine.Parallel
import LocalCert.Proofs.Session.Parallel
import Mathlib.Data.List.Forall2

/-
  The level of the logger only filters what is written to
  the journal.  Sessions and command lines give the same at
  every level, with the same calls and files, and a journal
  holds what the full one holds from the level upwards.

  Main declarations:
    * `World.SameButLog`
    * `Session.sameButLog_run`
    * `CommandLine.sameButLog_run`
    * `World.Parallel.filtered`
    * `level_only_filters`
-/

------------------------------------------------------------
-- Worlds At Two Levels
------------------------------------------------------------

namespace LocalCert

namespace World

/- A world whose logger has a given level. -/
def atLevel
    (level : Int)
    (w : World) : World :=
  { w with logger := { w.logger with level := level } }

/-
  Whether two worlds differ in the level of the logger and
  in the journal at most.
-/
def SameButLog
    (w v : World) : Prop :=
  ∃ level journal,
    v = { w.atLevel level with journal := journal }

/- The same result, in worlds that are the same otherwise. -/
def SameAnswer
    {α : Type}
    (r s : α × World) : Prop :=
  s.1 = r.1 ∧ r.2.SameButLog s.2

variable {w v : World}

theorem sameButLog_atLevel
    (level : Int)
    (w : World) :
    w.SameButLog (w.atLevel level) :=
  ⟨level, w.journal, rfl⟩

theorem SameButLog.parallel
    (hWorlds : w.SameButLog v) :
    Parallel w.chronicle v.chronicle w v := by
  have hSame : v = w.withChronicle v.chronicle := by
    rcases hWorlds with ⟨level, journal, rfl⟩
    rfl
  rw [hSame]
  exact parallel_self w v.chronicle

/- Worlds go on to be the same but for what is logged. -/
theorem SameButLog.of_parallel
    {after twinAfter : World}
    (hWorlds : w.SameButLog v)
    (hAfter :
      Parallel w.chronicle v.chronicle after twinAfter) :
    after.SameButLog twinAfter := by
  have hBefore :
      v.logger =
          { w.logger with level := v.logger.level } ∧
        v.calls = w.calls ∧ v.faultsMet = w.faultsMet := by
    rcases hWorlds with ⟨level, journal, rfl⟩
    exact ⟨rfl, rfl, rfl⟩
  rcases hBefore with ⟨hLogger, hCalls, hFaults⟩
  rcases hAfter with ⟨s, hPast, rfl⟩
  simp only [chronicle, Chronicle.extend,
    Chronicle.mk.injEq] at hPast
  rcases hPast with ⟨hSameLogger, _, hMade, hMet⟩
  refine
    ⟨v.logger.level, (v.chronicle.extend s).journal, ?_⟩
  simp only [withChronicle, chronicle, Chronicle.extend,
    atLevel, hSameLogger, hMade, hMet, hCalls, hFaults,
    ← hLogger]

end World

open World (Parallel SameAnswer SameButLog)

variable {w v : World}

------------------------------------------------------------
-- Sessions
------------------------------------------------------------

namespace Session

variable {keeper : Keeper}

/- Setting the level sets the level only. -/
theorem setLevel_eq_ok
    {value : Json}
    (hSet : setLevel value w = .ok v) :
    v = w.atLevel v.logger.level := by
  unfold setLevel Logger.setLevel at hSet
  cases hLevel : Level.ofJson value with
  | error e =>
      rw [hLevel] at hSet
      cases hSet
  | ok level =>
      rw [hLevel] at hSet
      cases hSet
      rfl

theorem sameButLog_step
    (hKeeper : keeper.Known)
    (s : Step)
    (hWorlds : w.SameButLog v) :
    SameAnswer (step keeper s w) (step keeper s v) := by
  have hCalls : v.calls = w.calls := by
    rcases hWorlds with ⟨_, _, rfl⟩
    rfl
  by_cases hLevel : s.SetsLevel
  · cases s with
    | setLevel value =>
        rcases hWorlds with ⟨level, journal, rfl⟩
        simp only [step, setLevel, Logger.setLevel]
        cases Level.ofJson value with
        | error e => exact ⟨rfl, level, journal, rfl⟩
        | ok l => exact ⟨rfl, l, journal, rfl⟩
    | _ => exact hLevel.elim
  · have hStep :=
      parallel_step hKeeper (fun _ => hCalls) hLevel
        hWorlds.parallel
    exact ⟨hStep.1, hWorlds.of_parallel hStep.2⟩

/- A session gives the same at every level. -/
theorem sameButLog_run
    (hKeeper : keeper.Known)
    (steps : List Step)
    (hWorlds : w.SameButLog v) :
    List.Forall₂ SameAnswer (run keeper steps w)
      (run keeper steps v) := by
  induction steps generalizing w v with
  | nil => exact .nil
  | cons s ss ih =>
      have hStep := sameButLog_step hKeeper s hWorlds
      rw [run_cons, run_cons]
      exact .cons hStep (ih hStep.2)

end Session

------------------------------------------------------------
-- Command Lines
------------------------------------------------------------

namespace CommandLine

theorem sameButLog_perform
    {o p : Options}
    (hOptions : fulfil p = fulfil o)
    (hWorlds : (prepare o w).SameButLog (prepare p v)) :
    SameAnswer (perform o w) (perform p v) := by
  have hDone := parallel_perform hOptions hWorlds.parallel
  exact ⟨hDone.1, hWorlds.of_parallel hDone.2⟩

/- A command line gives the same at every level. -/
theorem sameButLog_run
    (arguments : List String)
    (hWorlds : w.SameButLog v) :
    SameAnswer (run arguments w) (run arguments v) := by
  unfold run
  cases options arguments with
  | error s => exact ⟨rfl, hWorlds⟩
  | ok o =>
      apply sameButLog_perform rfl
      rcases hWorlds with ⟨level, journal, rfl⟩
      unfold prepare
      cases o.verbose with
      | true => exact ⟨Level.debug, journal, rfl⟩
      | false => exact ⟨level, journal, rfl⟩

/- The verbose switch only sets the level. -/
theorem sameButLog_run_verbose
    {arguments : List String}
    {o : Options}
    (hOptions : options arguments = .ok o)
    (w : World) :
    SameAnswer (run arguments w)
      (run ("--verbose" :: arguments) w) := by
  unfold run
  rw [hOptions, options_verbose hOptions]
  apply sameButLog_perform (fulfil_withDetails o)
  unfold prepare
  cases o.verbose with
  | true => exact ⟨Level.debug, w.journal, rfl⟩
  | false => exact ⟨Level.debug, w.journal, rfl⟩

end CommandLine

------------------------------------------------------------
-- What Is Filtered
------------------------------------------------------------

/- No event is below the level of details. -/
theorem Event.debug_le_level
    (e : Event) :
    Level.debug ≤ e.level := by
  cases e <;>
    simp only [level] <;>
    decide

/- A level that is set lets pass what is not below it. -/
theorem Logger.isEnabled_eq
    {l : Logger}
    (hLevel : l.level ≠ 0)
    (e : Event) :
    l.isEnabled e.level = decide (l.level ≤ e.level) := by
  have hPositive : 1 ≤ e.level :=
    Int.le_trans (by decide) e.debug_le_level
  have hOwn : l.effectiveLevel = l.level :=
    if_neg (by simpa [Level.notSet] using hLevel)
  rw [isEnabled, hOwn, decide_eq_true hPositive,
    Bool.true_and]

namespace World

/-
  Whether two worlds have come from two with equal journals,
  and the second has written of what the first has written
  what is not below a level.
-/
def Filtered
    (journal : List Event)
    (level : Int)
    (w v : World) : Prop :=
  ∃ more : List Event,
    w.journal = journal ++ more ∧
      v.journal =
        journal ++ more.filter (fun e => level ≤ e.level)

theorem Parallel.filtered
    {g h : Chronicle}
    (hWorlds : Parallel g h w v)
    (hJournals : h.journal = g.journal)
    (hFull : g.logger.level = Level.debug)
    (hLevel : h.logger.level ≠ 0) :
    Filtered g.journal h.logger.level w v := by
  have hSet : g.logger.level ≠ 0 := by
    rw [hFull]
    decide
  rcases hWorlds with ⟨s, hPast, rfl⟩
  have hAll :
      ∀ e ∈ s.events, g.logger.isEnabled e.level := by
    intro e _
    rw [Logger.isEnabled_eq hSet, hFull]
    exact decide_eq_true e.debug_le_level
  refine ⟨s.events, ?_, ?_⟩
  · have hJournal := congrArg Chronicle.journal hPast
    simp only [chronicle, Chronicle.extend] at hJournal
    rw [hJournal, List.filter_eq_self.mpr hAll]
  · simp only [withChronicle, Chronicle.extend, hJournals,
      Logger.isEnabled_eq hLevel]

end World

/- What a session writes at a level, out of all it can. -/
theorem Session.filtered_run
    {keeper : Keeper}
    {steps : List Step}
    {level : Int}
    (hKeeper : keeper.Known)
    (hLevels : ∀ s ∈ steps, ¬ s.SetsLevel)
    (hLevel : level ≠ 0)
    (w : World) :
    List.Forall₂
      (fun r q => World.Filtered w.journal level r.2 q.2)
      (run keeper steps (w.atLevel Level.debug))
      (run keeper steps (w.atLevel level)) := by
  have hWorlds :
      (w.atLevel Level.debug).SameButLog (w.atLevel level) :=
    World.sameButLog_atLevel level (w.atLevel Level.debug)
  have hCalls :
      (w.atLevel level).chronicle.calls =
        (w.atLevel Level.debug).chronicle.calls := rfl
  refine List.Forall₂.imp ?_
    (parallel_run hKeeper (fun _ => hCalls) hLevels
      hWorlds.parallel)
  rintro r q ⟨_, hAfter⟩
  exact hAfter.filtered rfl rfl hLevel

------------------------------------------------------------
-- The Level Only Filters
------------------------------------------------------------

/-
  Setting the level before a session or a command line, or
  the verbose switch in front of one that is accepted, has
  no effect on results, calls and files.  At a level other
  than zero, each step of a session that leaves it alone has
  written what the step writes at the level of details, from
  the level upwards.
-/
theorem level_only_filters
    (keeper : Session.Keeper)
    (hKeeper : keeper.Known)
    (w : World) :
    (∀ value v,
      Session.setLevel value w = .ok v →
      (∀ steps,
        List.Forall₂ SameAnswer
          (Session.run keeper steps w)
          (Session.run keeper steps v)) ∧
      (∀ arguments,
        SameAnswer (CommandLine.run arguments w)
          (CommandLine.run arguments v))) ∧
    (∀ arguments o,
      CommandLine.options arguments = .ok o →
      SameAnswer (CommandLine.run arguments w)
        (CommandLine.run ("--verbose" :: arguments) w)) ∧
    (∀ value full v,
      Session.setLevel (.whole Level.debug) w = .ok full →
      Session.setLevel value w = .ok v →
      v.logger.level ≠ 0 →
      ∀ steps : List Session.Step,
        (∀ s ∈ steps, ¬ s.SetsLevel) →
        List.Forall₂
          (fun r q =>
            World.Filtered w.journal v.logger.level r.2 q.2)
          (Session.run keeper steps full)
          (Session.run keeper steps v)) := by
  refine ⟨?_, ?_, ?_⟩
  · intro value v hSet
    have hWorlds : w.SameButLog v := by
      rw [Session.setLevel_eq_ok hSet]
      exact World.sameButLog_atLevel _ w
    refine ⟨?_, ?_⟩
    · intro steps
      exact Session.sameButLog_run hKeeper steps hWorlds
    · intro arguments
      exact CommandLine.sameButLog_run arguments hWorlds
  · intro arguments o hOptions
    exact CommandLine.sameButLog_run_verbose hOptions w
  · intro value full v hFull hSet hLevel steps hLevels
    rw [Session.setLevel_eq_ok hSet]
    cases hFull
    exact Session.filtered_run hKeeper hLevels hLevel w

/- Warnings only, in a world with one directory. -/
theorem warnings_only_filter :
    let w : World :=
      { files := ⟨[(["tmp"], .directory 0o777)]⟩
        cwd := []
        tempDir := "/tmp" }
    let steps : List Session.Step :=
      [.trusted "a.test", .provision none]
    List.Forall₂ SameAnswer
        (Session.run .fresh steps w)
        (Session.run .fresh steps
          (w.atLevel Level.warning)) ∧
      SameAnswer
        (CommandLine.run ["--hostname", "a.test"] w)
        (CommandLine.run
          ["--verbose", "--hostname", "a.test"] w) ∧
      List.Forall₂
        (fun r q =>
          World.Filtered w.journal Level.warning r.2 q.2)
        (Session.run .fresh steps (w.atLevel Level.debug))
        (Session.run .fresh steps
          (w.atLevel Level.warning)) := by
  intro w steps
  have hFilters := level_only_filters .fresh trivial w
  have hLevels : ∀ s ∈ steps, ¬ s.SetsLevel := by
    simp [steps, Session.Step.SetsLevel]
  refine ⟨?_, ?_, ?_⟩
  · exact (hFilters.1 (.whole Level.warning) _ rfl).1 steps
  · exact hFilters.2.1 ["--hostname", "a.test"] _ rfl
  · exact hFilters.2.2 (.whole Level.warning) _ _ rfl rfl
      (by decide) steps hLevels

end LocalCert
