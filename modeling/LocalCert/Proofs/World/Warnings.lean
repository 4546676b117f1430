import LocalCert.Proofs.Provisioner.Fallback
import LocalCert.Proofs.Session.Restoring
import LocalCert.Proofs.World.Abreast

/-
  What attempts report, and in which order: how they run, a
  warning if their workspace could not be removed, and that
  they succeeded.  Each removal that fails is warned of
  once, before anything that tells how the attempt ended.

  Main declarations:
    * `Attempt`
    * `World.Reports`
    * `Workspace.reports_within`
    * `Strategy.Known.reports`
    * `Provisioner.Tried`
    * `Provisioner.tried_provision`
-/

------------------------------------------------------------
-- Attempts
------------------------------------------------------------

namespace LocalCert

namespace Event

/- Whether an event tells how an attempt runs. -/
def IsOpening : Event → Prop
  | .workspaceCreated _ => True
  | .runningTool _ _ => True
  | _ => False

/- Whether an event tells that an attempt succeeded. -/
def IsSuccess : Event → Prop
  | .issued _ _ => True
  | .selfSigned _ _ => True
  | _ => False

/- The fault that an event warns of, if it does. -/
def removalFault? : Event → Option Files.Fault
  | .workspaceNotRemoved _ f => some f
  | _ => none

end Event

/-
  What one attempt reports: events while it runs, then the
  removal of its workspace with the fault that it met, if
  there was a workspace, and an event if it succeeded.
-/
structure Attempt where
  opening : List Event
  removal : Option (String × Option Files.Fault)
  success : Option Event

namespace Attempt

/- The fault that the removal met. -/
def fault
    (a : Attempt) : Option Files.Fault :=
  a.removal.bind Prod.snd

/- The warning that the removal met a fault. -/
def warning
    (a : Attempt) : Option Event :=
  a.removal.bind (fun r => r.2.map (.workspaceNotRemoved r.1))

/- The events of an attempt in their order. -/
def events
    (a : Attempt) : List Event :=
  a.opening ++ a.warning.toList ++ a.success.toList

end Attempt

------------------------------------------------------------
-- Reports
------------------------------------------------------------

namespace World

/-
  Whether an attempt led from one world to another.  Faults
  that are set for removals are among those that they meet.
-/
structure Reports
    (a : Attempt)
    (before after : World) : Prop where
  logger : after.logger = before.logger
  journal : after.journal = before.journal ++ a.events
  faultsMet :
    after.faultsMet = before.faultsMet ++ a.fault.toList
  removalsTried :
    after.removalsTried =
      before.removalsTried + a.removal.toList.length
  removal :
    ∀ r ∈ a.removal, ∀ words ∈ before.nextRemovalFault,
      r.2 = some (.described words)
  opening : ∀ e ∈ a.opening, e.IsOpening
  success : ∀ e ∈ a.success, e.IsSuccess

/- Whether only the running of an attempt was reported. -/
structure Runs
    (before after : World) : Prop where
  logger : after.logger = before.logger
  faultsMet : after.faultsMet = before.faultsMet
  removalsTried : after.removalsTried = before.removalsTried
  removalFaults : after.removalFaults = before.removalFaults
  journal :
    ∃ opening,
      after.journal = before.journal ++ opening ∧
        ∀ e ∈ opening, Event.IsOpening e

instance : IsPreorder World Runs where
  refl w :=
    { logger := rfl
      faultsMet := rfl
      removalsTried := rfl
      removalFaults := rfl
      journal := ⟨[], by simp⟩ }
  trans a b c hFirst hNext := by
    rcases hFirst.journal with ⟨es, hEvents, hEach⟩
    rcases hNext.journal with ⟨more, hMore, hEachMore⟩
    exact
      { logger := hNext.logger.trans hFirst.logger
        faultsMet := hNext.faultsMet.trans hFirst.faultsMet
        removalsTried :=
          hNext.removalsTried.trans hFirst.removalsTried
        removalFaults :=
          hNext.removalFaults.trans hFirst.removalFaults
        journal := by
          refine ⟨es ++ more, ?_, ?_⟩
          · rw [hMore, hEvents, List.append_assoc]
          · exact List.forall_mem_append.mpr
              ⟨hEach, hEachMore⟩ }

/- What the journal and the removals say nothing of. -/
theorem runs_of_eq
    {before after : World}
    (hLogger : after.logger = before.logger)
    (hFaults : after.faultsMet = before.faultsMet)
    (hTried : after.removalsTried = before.removalsTried)
    (hSet : after.removalFaults = before.removalFaults)
    (hJournal : after.journal = before.journal) :
    Runs before after where
  logger := hLogger
  faultsMet := hFaults
  removalsTried := hTried
  removalFaults := hSet
  journal := ⟨[], by simp [hJournal]⟩

@[simp] theorem report_removalFaults
    (w : World)
    (e : Event) :
    (w.report e).removalFaults = w.removalFaults := by
  unfold report
  split <;> rfl

theorem runs_report
    {e : Event}
    (hOpening : e.IsOpening)
    (w : World) :
    Runs w (w.report e) where
  logger := report_logger w e
  faultsMet := report_faultsMet w e
  removalsTried := report_removalsTried w e
  removalFaults := report_removalFaults w e
  journal := by
    refine ⟨_, report_journal w e, ?_⟩
    intro d hd
    split at hd
    · rw [List.mem_singleton.mp hd]
      exact hOpening
    · cases hd

/- An attempt that got no further than its running. -/
theorem Runs.reports
    {before after : World}
    (hRuns : Runs before after) :
    ∃ a : Attempt, a.success = none ∧ Reports a before after := by
  rcases hRuns.journal with ⟨opening, hJournal, hEach⟩
  exact
    ⟨⟨opening, none, none⟩, rfl,
      { logger := hRuns.logger
        journal := by
          simp [hJournal, Attempt.events, Attempt.warning]
        faultsMet := by
          simp [hRuns.faultsMet, Attempt.fault]
        removalsTried := by simp [hRuns.removalsTried]
        removal := by simp
        opening := hEach
        success := by simp }⟩

/- The warnings of an attempt are of the faults it met. -/
theorem Reports.warned
    {a : Attempt}
    {before after : World}
    (hReports : Reports a before after) :
    after.journal.filterMap Event.removalFault? =
      before.journal.filterMap Event.removalFault? ++
        a.fault.toList := by
  have hOpening :
      a.opening.filterMap Event.removalFault? = [] := by
    rw [List.filterMap_eq_nil_iff]
    intro e he
    have hEvent := hReports.opening e he
    cases e with
    | workspaceNotRemoved _ _ => cases hEvent
    | _ => rfl
  have hSuccess :
      a.success.toList.filterMap Event.removalFault? =
        [] := by
    rw [List.filterMap_eq_nil_iff]
    intro e he
    have hEvent := hReports.success e (by simpa using he)
    cases e with
    | workspaceNotRemoved _ _ => cases hEvent
    | _ => rfl
  have hWarning :
      a.warning.toList.filterMap Event.removalFault? =
        a.fault.toList := by
    rcases a with ⟨opening, removal, success⟩
    rcases removal with _ | ⟨path, _ | f⟩ <;> rfl
  rw [hReports.journal, Attempt.events]
  simp only [List.filterMap_append, hOpening, hSuccess,
    hWarning, List.nil_append, List.append_nil]

/- Telling that an attempt succeeded ends it. -/
theorem Reports.report
    {a : Attempt}
    {before after : World}
    {e : Event}
    (hReports : Reports a before after)
    (hOpen : a.success = none)
    (hSuccess : e.IsSuccess) :
    ∃ ended : Attempt,
      Reports ended before (after.report e) := by
  have hJournal := report_journal after e
  cases hEnabled : after.logger.isEnabled e.level with
  | true =>
      refine ⟨{ a with success := some e }, ?_⟩
      exact
        { logger := by
            rw [report_logger, hReports.logger]
          journal := by
            rw [hJournal, hEnabled, hReports.journal]
            simp [Attempt.events, Attempt.warning, hOpen]
          faultsMet := by
            rw [report_faultsMet, hReports.faultsMet]
            rfl
          removalsTried := by
            rw [report_removalsTried, hReports.removalsTried]
          removal := hReports.removal
          opening := hReports.opening
          success := by simpa using hSuccess }
  | false =>
      refine ⟨a, ?_⟩
      rw [World.report, hEnabled]
      exact hReports

end World

open World (Runs Reports)

/- A command only reports that it runs. -/
theorem Tool.keeps_runs_run
    (c : Command) :
    Act.Keeps Runs (run c) := by
  refine keeps_run ?_ ?_
  · intro w tool
    exact World.runs_report
      (e := .runningTool tool c.argv) trivial w
  · intro w
    rw [runIn_start]
    exact World.runs_of_eq rfl rfl rfl rfl rfl

------------------------------------------------------------
-- Workspaces
------------------------------------------------------------

namespace Workspace

theorem keeps_runs_create
    (start : String)
    (parent : Option Path) :
    Act.Keeps Runs (create start parent) := by
  intro w
  cases hRun : (create start parent).runIn w with
  | mk result after =>
      cases result with
      | error f =>
          rw [(create_eq_error hRun).1]
          exact World.runs_of_eq rfl rfl rfl rfl rfl
      | ok ws =>
          rcases create_eq_ok hRun with ⟨n, l, _, _, hAfter⟩
          rw [hAfter]
          have hReported :=
            World.runs_report
              (e := .workspaceCreated ws.text) trivial
              { w with
                namesTried := n
                files :=
                  w.files.put l (.directory privateMode) }
          exact
            { hReported with }

/-
  An attempt in a workspace reports how it runs, and then
  whether its workspace is still there.
-/
theorem reports_within
    {α : Type}
    {start : String}
    {parent : Option Path}
    {body : Path → Act α}
    {w : World}
    (hEnabled : w.logger.isEnabled Level.warning = true)
    (hBody : ∀ path, Act.Keeps Runs (body path)) :
    ∃ a : Attempt,
      a.success = none ∧
        Reports a w
          ((within start parent body).runIn w).2 := by
  have hCreate := keeps_runs_create start parent w
  rw [within, Act.runIn_bind]
  cases hRun : (create start parent).runIn w with
  | mk result made =>
      rw [hRun] at hCreate
      cases result with
      | error f => exact hCreate.reports
      | ok ws =>
          have hRuns : Runs w ((body ws).runIn made).2 :=
            trans_of Runs hCreate (hBody ws made)
          rcases hRuns.journal with ⟨opening, hJournal, hEach⟩
          have hWarned :
              ((body ws).runIn made).2.logger.isEnabled
                Level.warning = true := by
            rw [hRuns.logger, hEnabled]
          let met := closingFault ws ((body ws).runIn made).2
          refine
            ⟨⟨opening, some (ws.text, met), none⟩, rfl, ?_⟩
          simp only [Act.runIn_ensuring, close_eq,
            if_pos hWarned]
          exact
            { logger := hRuns.logger
              journal := by
                simp [met, hJournal, Attempt.events,
                  Attempt.warning]
              faultsMet := by
                simp [met, hRuns.faultsMet, Attempt.fault]
              removalsTried := by
                simp [hRuns.removalsTried]
              removal := by
                simp only [Option.mem_some_iff, forall_eq']
                intro words hWords
                apply closingFault_of_set
                rw [World.nextRemovalFault,
                  hRuns.removalsTried, hRuns.removalFaults]
                exact hWords
              opening := hEach
              success := by simp }

end Workspace

------------------------------------------------------------
-- Strategies
------------------------------------------------------------

/- Telling of material after an attempt in a workspace. -/
theorem Act.reports_told
    {act : Act Material}
    {e : Event}
    {w : World}
    (hSuccess : e.IsSuccess)
    (hAct :
      ∃ a : Attempt,
        a.success = none ∧ Reports a w (act.runIn w).2) :
    ∃ a : Attempt,
      Reports a w
        ((do
          let m ← act
          Act.report e
          return m : Act Material).runIn w).2 := by
  rcases hAct with ⟨a, hOpen, hReports⟩
  rw [Act.runIn_bind]
  cases hRun : act.runIn w with
  | mk result after =>
      rw [hRun] at hReports
      cases result with
      | error f => exact ⟨a, hReports⟩
      | ok m => exact hReports.report hOpen hSuccess

variable {w : World}

theorem Trusted.reports_issue
    (hEnabled : w.logger.isEnabled Level.warning = true)
    (config : Config)
    (hostname : String) :
    ∃ a : Attempt,
      Reports a w ((issue config hostname).runIn w).2 := by
  refine Act.reports_told trivial ?_
  refine Workspace.reports_within hEnabled ?_
  intro ws
  exact keeps_attempt (Tool.keeps_runs_run _)

theorem Manual.reports_issue
    (hEnabled : w.logger.isEnabled Level.warning = true)
    (config : Config)
    (hostname : String) :
    ∃ a : Attempt,
      Reports a w ((issue config hostname).runIn w).2 := by
  refine Act.reports_told trivial ?_
  refine Workspace.reports_within hEnabled ?_
  intro ws
  exact keeps_attempt (Tool.keeps_runs_run _)
    (Tool.keeps_runs_run _) (Tool.keeps_runs_run _)

theorem Strategy.reports_trusted
    (hEnabled : w.logger.isEnabled Level.warning = true)
    (config : World → Config)
    (hostname : String) :
    ∃ a : Attempt,
      Reports a w
        (((Strategy.trusted config).issue hostname).runIn
          w).2 := by
  rw [runIn_trusted]
  exact Trusted.reports_issue hEnabled _ hostname

theorem Strategy.reports_manual
    (hEnabled : w.logger.isEnabled Level.warning = true)
    (config : World → Config)
    (hostname : String) :
    ∃ a : Attempt,
      Reports a w
        (((Strategy.manual config).issue hostname).runIn
          w).2 := by
  rw [runIn_manual]
  exact Manual.reports_issue hEnabled _ hostname

/- Each strategy that is known makes one attempt. -/
theorem Strategy.Known.reports
    {s : Strategy}
    (hKnown : s.Known)
    (hEnabled : w.logger.isEnabled Level.warning = true)
    (hostname : String) :
    ∃ a : Attempt,
      Reports a w ((s.issue hostname).runIn w).2 := by
  cases hKnown with
  | trusted => exact reports_trusted hEnabled _ hostname
  | manual => exact reports_manual hEnabled _ hostname
  | scripted position a =>
      have hRuns :
          Runs w (w.note (.strategy position a.name hostname)) :=
        World.runs_of_eq rfl rfl rfl rfl rfl
      rcases hRuns.reports with ⟨b, _, hReports⟩
      exact ⟨b, hReports⟩

------------------------------------------------------------
-- Strategies In Order
------------------------------------------------------------

namespace Provisioner

/-
  Whether strategies were tried in order, from one world to
  another: each made one attempt, and only after an attempt
  that failed was the next strategy fallen back to.
-/
inductive Tried
    (hostname : String) :
    List Strategy → World → World → Prop where
  | last
      {s : Strategy}
      {ss : List Strategy}
      {w : World}
      {a : Attempt}
      (hReports :
        Reports a w ((s.issue hostname).runIn w).2) :
      Tried hostname (s :: ss) w
        ((s.issue hostname).runIn w).2
  | next
      {s : Strategy}
      {ss : List Strategy}
      {w after v : World}
      {a : Attempt}
      {f : Failure}
      (hReports : Reports a w after)
      (hRun :
        (s.issue hostname).runIn w = (.error f, after))
      (hRest :
        Tried hostname ss
          (after.report (.fellBack s.name hostname f)) v) :
      Tried hostname (s :: ss) w v

/- Every fault that was met was warned of once, in order. -/
theorem Tried.faultsMet
    {hostname : String}
    {strategies : List Strategy}
    {w v : World}
    (hTried : Tried hostname strategies w v) :
    ∃ faults,
      v.faultsMet = w.faultsMet ++ faults ∧
        v.journal.filterMap Event.removalFault? =
          w.journal.filterMap Event.removalFault? ++
            faults := by
  induction hTried with
  | last hReports =>
      exact ⟨_, hReports.faultsMet, hReports.warned⟩
  | @next _ _ _ _ _ a _ hReports _ _ ih =>
      rcases ih with ⟨faults, hFaults, hWarned⟩
      refine ⟨a.fault.toList ++ faults, ?_, ?_⟩
      · rw [hFaults, World.report_faultsMet,
          hReports.faultsMet, List.append_assoc]
      · rw [hWarned, World.report_journal,
          List.filterMap_append, hReports.warned]
        split <;>
          simp [Event.removalFault?]

theorem tried_tryEach
    {hostname : String}
    {last : Strategy}
    {strategies : List Strategy}
    (hEnabled : w.logger.isEnabled Level.warning = true)
    (hEach :
      ∀ s ∈ strategies ++ [last], ∀ v : World,
        v.logger.isEnabled Level.warning = true →
        ∃ a : Attempt,
          Reports a v ((s.issue hostname).runIn v).2) :
    Tried hostname (strategies ++ [last]) w
      ((tryEach hostname last strategies).runIn w).2 := by
  induction strategies generalizing w with
  | nil =>
      rcases hEach last (by simp) w hEnabled with
        ⟨a, hReports⟩
      exact .last hReports
  | cons s ss ih =>
      rcases hEach s (by simp) w hEnabled with
        ⟨a, hReports⟩
      have hOthers :
          ∀ x ∈ ss ++ [last], ∀ v : World,
            v.logger.isEnabled Level.warning = true →
            ∃ a : Attempt,
              Reports a v ((x.issue hostname).runIn v).2 := by
        intro x hx
        exact hEach x (by simp [hx])
      have hLast :
          Tried hostname (s :: (ss ++ [last])) w
            ((s.issue hostname).runIn w).2 :=
        .last hReports
      rw [tryEach, Act.runIn_orElseWith]
      cases hRun : (s.issue hostname).runIn w with
      | mk result after =>
          cases result with
          | ok m =>
              rw [hRun] at hLast
              exact hLast
          | error f =>
              simp only
              split
              · rw [hRun] at hReports
                refine .next hReports hRun ?_
                refine ih ?_ hOthers
                rw [World.report_logger, hReports.logger,
                  hEnabled]
              · rw [hRun] at hLast
                exact hLast

/- A hostname that is refused is not tried for. -/
theorem tried_provision
    {p : Provisioner}
    (hostname : String)
    (hEnabled : w.logger.isEnabled Level.warning = true)
    (hEach :
      ∀ s ∈ p.fallible ++ [p.last], ∀ h, ∀ v : World,
        v.logger.isEnabled Level.warning = true →
        ∃ a : Attempt,
          Reports a v ((s.issue h).runIn v).2) :
    ((p.provision hostname).runIn w).2 = w ∨
      Tried hostname (p.fallible ++ [p.last]) w
        ((p.provision hostname).runIn w).2 := by
  unfold provision
  cases hValid : Hostname.validate hostname with
  | error d => exact .inl rfl
  | ok passed =>
      rw [Hostname.validate_eq_ok hValid]
      refine .inr (tried_tryEach hEnabled ?_)
      intro s hs
      exact hEach s hs hostname

end Provisioner

end LocalCert
