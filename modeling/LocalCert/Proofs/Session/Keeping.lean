import LocalCert.Proofs.Provisioner.Fallback
import LocalCert.Proofs.Session.Parallel

/-
  One provisioner for a whole session, or a new one for each
  request: both read the configuration when they are asked
  to issue, so that they cannot be told apart.  A step uses
  the configuration that stands when it is taken, and of
  what happened before it nothing but what is there now.

  Main declarations:
    * `Session.run_standard_eq`
    * `World.CallsAmong`
    * `Session.UsesCurrent`
    * `Session.step_usesCurrent`
    * `World.SameSince`
    * `Session.kept_agrees_with_fresh`
-/

------------------------------------------------------------
-- One Provisioner Or Many
------------------------------------------------------------

namespace LocalCert

variable {hostname : String}
variable {w v before after : World}

namespace Provisioner

/- The two strategies one after the other. -/
theorem runIn_tryEach_standard
    (config : World → Config)
    (hostname : String)
    (w : World) :
    (tryEach hostname (.manual config)
        [.trusted config]).runIn w =
      match (Trusted.issue (config w) hostname).runIn w with
      | (.ok m, after) => (.ok m, after)
      | (.error f, after) =>
          let told :=
            after.report (.fellBack trustedName hostname f)
          if f.isRecoverable then
            (Manual.issue (config told) hostname).runIn told
          else
            (.error f, after) := by
  simp only [tryEach, Act.runIn_orElseWith,
    Strategy.runIn_trusted]
  rcases (Trusted.issue (config w) hostname).runIn w with
    ⟨result, after⟩
  cases result with
  | ok m => rfl
  | error f =>
      simp only [Strategy.trusted]
      by_cases hRecoverable : f.isRecoverable
      · rw [if_pos hRecoverable, if_pos hRecoverable,
          Act.runIn_bind, Act.runIn_report]
        simp only [Strategy.runIn_manual]
      · rw [if_neg hRecoverable, if_neg hRecoverable,
          Act.runIn_fail]

/-
  The provisioner that looks its configuration up does what
  one does that has got the configuration of the world.
-/
theorem runIn_standard_config
    (hostname : String)
    (w : World) :
    ((standard World.config).provision hostname).runIn w =
      ((standard (fun _ => w.config)).provision
        hostname).runIn w := by
  unfold provision
  cases Hostname.validate hostname with
  | error d => rfl
  | ok h =>
      simp only [standard, runIn_tryEach_standard]
      have hLeads := Trusted.keeps_leads_issue w.config h w
      rcases hRun : (Trusted.issue w.config h).runIn w with
        ⟨result, after⟩
      rw [hRun] at hLeads
      cases result with
      | ok m => rfl
      | error f =>
          simp only
          rw [(World.leads_report after _).config,
            hLeads.config]

end Provisioner

namespace Session

theorem step_standard_eq
    (s : Step)
    (w : World) :
    step .standard s w = step .fresh s w := by
  cases s with
  | provision hostname =>
      simp only [step, issued, request, Keeper.standard,
        Provisioner.runIn_standard_config]
      rfl
  | _ => rfl

theorem run_standard_eq
    (steps : List Step)
    (w : World) :
    run .standard steps w = run .fresh steps w := by
  induction steps generalizing w with
  | nil => rfl
  | cons s ss ih =>
      rw [run_cons, run_cons, step_standard_eq, ih]

end Session

------------------------------------------------------------
-- Calls
------------------------------------------------------------

namespace World

/- Whether all calls that came about are of some kind. -/
def CallsAmong
    (P : Call → Prop)
    (before after : World) : Prop :=
  ∃ made : List Call,
    after.calls = before.calls ++ made ∧ ∀ c ∈ made, P c

variable {P : Call → Prop}

theorem callsAmong_of_eq
    (hCalls : after.calls = before.calls) :
    before.CallsAmong P after := by
  refine ⟨[], ?_, ?_⟩
  · rw [hCalls, List.append_nil]
  · simp

theorem callsAmong_report
    (e : Event)
    (w : World) :
    w.CallsAmong P (w.report e) :=
  callsAmong_of_eq (report_calls w e)

instance : IsPreorder World (CallsAmong P) where
  refl _ := callsAmong_of_eq rfl
  trans a b c hFirst hNext := by
    rcases hFirst with ⟨made, hMade, hAll⟩
    rcases hNext with ⟨more, hMore, hRest⟩
    refine ⟨made ++ more, ?_, ?_⟩
    · rw [hMore, hMade, List.append_assoc]
    · intro x hx
      rcases List.mem_append.mp hx with hx | hx
      · exact hAll x hx
      · exact hRest x hx

/- The process of one command. -/
theorem callsAmong_run
    {c : Tool.Command}
    (hCall : P c.call) :
    Act.Keeps (CallsAmong P) (Tool.run c) := by
  refine Tool.keeps_run ?_ ?_
  · intro w tool
    exact callsAmong_report _ w
  · intro w
    rw [Tool.runIn_start]
    refine ⟨[c.call], rfl, ?_⟩
    simpa using hCall

/- An attempt in a workspace, whichever is made for it. -/
theorem callsAmong_within
    {α : Type}
    {w : World}
    {start : String}
    {body : Path → Act α}
    (hBody :
      ∀ n,
        Act.Keeps (CallsAmong P)
          (body (w.workspaceAt start n))) :
    w.CallsAmong P
      ((Workspace.within start w.config.workspaceDir
        body).runIn w).2 := by
  unfold Workspace.within
  rw [Act.runIn_bind]
  rcases hRun :
      (Workspace.create start w.config.workspaceDir).runIn
        w with
    ⟨result, made⟩
  cases result with
  | error f =>
      rcases Workspace.create_eq_error hRun with ⟨hMade, _⟩
      refine callsAmong_of_eq ?_
      rw [hMade]
  | ok path =>
      rcases Workspace.create_eq_ok hRun with
        ⟨n, l, rfl, _, hMade⟩
      have hStart : w.CallsAmong P made := by
        refine callsAmong_of_eq ?_
        rw [hMade, report_calls]
      refine trans_of (CallsAmong P) hStart ?_
      have hKeeps :
          Act.Keeps (CallsAmong P)
            (Act.ensuring (body (w.workspaceAt start n))
              (Workspace.close (w.workspaceAt start n))) := by
        refine Act.Keeps.ensuring (hBody n) ?_
        intro u
        exact callsAmong_of_eq (Workspace.close_calls _ u)
      exact hKeeps made

/- The calls that a strategy may make for a hostname. -/
def Starts
    (w : World)
    (hostname : String)
    (c : Call) : Prop :=
  ∃ n, ∃ x ∈ w.commandsAt hostname n, c = x.1.call

theorem callsAmong_command
    {n : Nat}
    {x : Tool.Command × Path}
    (hx : x ∈ w.commandsAt hostname n) :
    Act.Keeps (CallsAmong (w.Starts hostname))
      (Tool.run x.1) :=
  callsAmong_run ⟨n, x, hx, rfl⟩

end World

theorem Trusted.callsAmong_issue
    (hostname : String)
    (w : World) :
    w.CallsAmong (w.Starts hostname)
      ((issue w.config hostname).runIn w).2 := by
  refine Act.Keeps.bind_at ?_
    (Act.Keeps.telling (World.callsAmong_report _))
  refine World.callsAmong_within ?_
  intro n
  let ws := w.workspaceAt workspaceStart n
  have hCommand :
      (command w.config ws hostname, ws) ∈
        w.commandsAt hostname n := .head _
  exact keeps_attempt (World.callsAmong_command hCommand)

theorem Manual.callsAmong_issue
    (hostname : String)
    (w : World) :
    w.CallsAmong (w.Starts hostname)
      ((issue w.config hostname).runIn w).2 := by
  refine Act.Keeps.bind_at ?_
    (Act.Keeps.telling (World.callsAmong_report _))
  refine World.callsAmong_within ?_
  intro n
  let ws := w.workspaceAt workspaceStart n
  have hCommands :
      ∀ c ∈ [keyCommand w.config ws,
          requestCommand w.config hostname ws,
          signCommand w.config hostname ws],
        Act.Keeps
          (World.CallsAmong (w.Starts hostname))
          (Tool.run c) := by
    intro c hc
    have hMember : (c, ws) ∈ w.commandsAt hostname n :=
      .tail _ (List.mem_map_of_mem (f := fun c => (c, ws)) hc)
    exact World.callsAmong_command hMember
  apply keeps_attempt
  · exact hCommands _ (.head _)
  · exact hCommands _ (.tail _ (.head _))
  · exact hCommands _ (.tail _ (.tail _ (.head _)))

/- Both strategies use the configuration of the world. -/
theorem Provisioner.callsAmong_provision
    (hostname : String)
    (w : World) :
    w.CallsAmong (w.Starts hostname)
      (((standard World.config).provision
        hostname).runIn w).2 := by
  unfold provision
  cases hValid : Hostname.validate hostname with
  | error d => exact World.callsAmong_of_eq rfl
  | ok h =>
      cases Hostname.validate_eq_ok hValid
      simp only [standard, runIn_tryEach_standard]
      have hLeads :=
        Trusted.keeps_leads_issue w.config hostname w
      have hFirst := Trusted.callsAmong_issue hostname w
      rcases hRun :
          (Trusted.issue w.config hostname).runIn w with
        ⟨result, after⟩
      rw [hRun] at hLeads hFirst
      cases result with
      | ok m => exact hFirst
      | error f =>
          simp only
          split
          · let told :=
              after.report (.fellBack trustedName hostname f)
            have hTold : w.Leads told :=
              hLeads.trans (World.leads_report after _)
            have hStarts :
                told.Starts hostname = w.Starts hostname := by
              unfold World.Starts
              rw [hTold.commandsAt_eq]
            have hReported :
                after.CallsAmong (w.Starts hostname) told :=
              World.callsAmong_report _ after
            have hNext :=
              Manual.callsAmong_issue hostname told
            rw [hStarts] at hNext
            exact trans_of (World.CallsAmong _)
              (trans_of (World.CallsAmong _) hFirst hReported)
              hNext
          · exact hFirst

------------------------------------------------------------
-- What A Step Uses
------------------------------------------------------------

namespace Session

/- The hostname that a step asks for material for. -/
def Step.hostname? : Step → Option String
  | .provision hostname =>
      some (hostname.getD Provisioner.defaultHostname)
  | .trusted hostname => some hostname
  | .manual hostname => some hostname
  | _ => none

/- The configuration after a step. -/
def Step.configAfter
    (s : Step)
    (c : Config) : Config :=
  match s with
  | .assign settings => c.assignAll settings
  | _ => c

/-
  Whether a step goes by the configuration that stands when
  it is taken: only assignments change it, all processes are
  those of its commands, and a request gives what a new
  provisioner gives that knows this configuration only.
-/
structure UsesCurrent
    (before : World)
    (s : Step)
    (r : Except Error (Option Material) × World) :
    Prop where
  config : r.2.config = s.configAfter before.config
  calls :
    before.CallsAmong
      (fun c =>
        ∃ hostname ∈ s.hostname?, before.Starts hostname c)
      r.2
  request :
    ∀ hostname,
      s = .provision hostname →
      r =
        issued
          (LocalCert.provision
            (hostname.getD Provisioner.defaultHostname)
            before.config)
          before

/- A step that asks for material. -/
theorem usesCurrent_issued
    {s : Step}
    {act : Act Material}
    {hostname : String}
    (hHostname : s.hostname? = some hostname)
    (hConfig : s.configAfter = id)
    (hLeads : w.Leads (act.runIn w).2)
    (hCalls :
      w.CallsAmong (w.Starts hostname) (act.runIn w).2)
    (hRequest :
      ∀ h,
        s = .provision h →
        issued act w =
          issued
            (LocalCert.provision
              (h.getD Provisioner.defaultHostname) w.config)
            w) :
    UsesCurrent w s (issued act w) where
  config := by
    rw [issued_eq, hConfig]
    exact hLeads.config
  calls := by
    rcases hCalls with ⟨made, hMade, hAll⟩
    refine ⟨made, ?_, ?_⟩
    · rw [issued_eq]
      exact hMade
    · intro c hc
      exact ⟨hostname, hHostname, hAll c hc⟩
  request := hRequest

/- A step that asks for no material. -/
theorem usesCurrent_of_idle
    {s : Step}
    {r : Except Error (Option Material) × World}
    (hIdle : s.hostname? = none)
    (hConfig : r.2.config = s.configAfter w.config)
    (hCalls : r.2.calls = w.calls) :
    UsesCurrent w s r where
  config := hConfig
  calls := World.callsAmong_of_eq hCalls
  request := by
    rintro hostname rfl
    cases hIdle

/- What a kept provisioner gives, a new one gives. -/
theorem issued_standard
    (hostname : String)
    (w : World) :
    issued ((Provisioner.standard World.config).provision
        hostname) w =
      issued (LocalCert.provision hostname w.config) w := by
  rw [issued_eq, issued_eq,
    Provisioner.runIn_standard_config]
  rfl

theorem step_usesCurrent
    (w : World)
    (s : Step) :
    UsesCurrent w s (step .standard s w) := by
  cases s with
  | provision hostname =>
      have hLeads :=
        (request_restores known_standard
          (hostname.getD Provisioner.defaultHostname)
          w).leads
      simp only [step, request, Keeper.standard] at hLeads ⊢
      refine usesCurrent_issued rfl rfl hLeads
        (Provisioner.callsAmong_provision _ w) ?_
      rintro _ ⟨⟩
      exact issued_standard _ w
  | trusted hostname =>
      have hLeads :=
        Trusted.keeps_leads_issue w.config hostname w
      have hCalls := Trusted.callsAmong_issue hostname w
      rw [← Strategy.runIn_trusted] at hLeads hCalls
      simp only [step]
      refine usesCurrent_issued rfl rfl hLeads hCalls ?_
      rintro _ ⟨⟩
  | manual hostname =>
      have hLeads :=
        Manual.keeps_leads_issue w.config hostname w
      have hCalls := Manual.callsAmong_issue hostname w
      rw [← Strategy.runIn_manual] at hLeads hCalls
      simp only [step]
      refine usesCurrent_issued rfl rfl hLeads hCalls ?_
      rintro _ ⟨⟩
  | setLevel level =>
      simp only [step, setLevel]
      cases w.logger.setLevel level with
      | error e => exact usesCurrent_of_idle rfl rfl rfl
      | ok logger => exact usesCurrent_of_idle rfl rfl rfl
  | _ => exact usesCurrent_of_idle rfl rfl rfl

end Session

------------------------------------------------------------
-- What A Step Does Not Use
------------------------------------------------------------

namespace World

/- A world with another past. -/
def withPast
    (w : World)
    (journal : List Event)
    (calls : List Call)
    (faults : List Files.Fault) : World :=
  { w with
    journal := journal
    calls := calls
    faultsMet := faults }

/- Whether two lists have grown by the same items. -/
def GrownAlike
    {α : Type}
    (l m grown twinGrown : List α) : Prop :=
  ∃ more, grown = l ++ more ∧ twinGrown = m ++ more

theorem grownAlike_self
    {α : Type}
    (l m : List α) :
    GrownAlike l m l m :=
  ⟨[], (List.append_nil l).symm, (List.append_nil m).symm⟩

theorem GrownAlike.trans
    {α : Type}
    {l m a b c d : List α}
    (hFirst : GrownAlike l m a b)
    (hNext : GrownAlike a b c d) :
    GrownAlike l m c d := by
  rcases hFirst with ⟨more, rfl, rfl⟩
  rcases hNext with ⟨rest, rfl, rfl⟩
  refine ⟨more ++ rest, ?_, ?_⟩
  · rw [List.append_assoc]
  · rw [List.append_assoc]

/-
  Whether two worlds are the same but for what happened in
  two others that they have come from, and the same has
  happened since.
-/
structure SameSince
    (w v after twinAfter : World) : Prop where
  present :
    twinAfter =
      after.withPast twinAfter.journal twinAfter.calls
        twinAfter.faultsMet
  journal :
    GrownAlike w.journal v.journal after.journal
      twinAfter.journal
  calls :
    GrownAlike w.calls v.calls after.calls twinAfter.calls
  faultsMet :
    GrownAlike w.faultsMet v.faultsMet after.faultsMet
      twinAfter.faultsMet

/- Two worlds that are about to start. -/
theorem sameSince_self
    (w : World)
    (journal : List Event)
    (calls : List Call)
    (faults : List Files.Fault) :
    SameSince w (w.withPast journal calls faults) w
      (w.withPast journal calls faults) where
  present := rfl
  journal := grownAlike_self _ _
  calls := grownAlike_self _ _
  faultsMet := grownAlike_self _ _

variable {a b r q : World}

/- The same goes on to happen in both worlds. -/
theorem SameSince.trans
    (hFirst : SameSince w v a b)
    (hNext : SameSince a b r q) :
    SameSince w v r q where
  present := hNext.present
  journal := hFirst.journal.trans hNext.journal
  calls := hFirst.calls.trans hNext.calls
  faultsMet := hFirst.faultsMet.trans hNext.faultsMet

theorem SameSince.logger_eq
    (hWorlds : SameSince w v a b) :
    b.logger = a.logger := by
  rw [hWorlds.present]
  rfl

theorem SameSince.parallel
    (hWorlds : SameSince w v a b) :
    Parallel a.chronicle b.chronicle a b := by
  have hSame : b = a.withChronicle b.chronicle := by
    rw [hWorlds.present]
    rfl
  rw [hSame]
  exact parallel_self a b.chronicle

/- Worlds with loggers at one level note the same. -/
theorem Parallel.sameSince
    (hLogger : b.logger = a.logger)
    (hAfter : Parallel a.chronicle b.chronicle r q) :
    SameSince a b r q := by
  rcases hAfter with ⟨s, hPast, rfl⟩
  simp only [chronicle, Chronicle.extend,
    Chronicle.mk.injEq] at hPast
  rcases hPast with ⟨hSame, hJournal, hCalls, hFaults⟩
  constructor
  · simp only [withChronicle, withPast, chronicle,
      Chronicle.extend, hLogger, hSame]
  · refine ⟨_, hJournal, ?_⟩
    simp only [withChronicle, chronicle, Chronicle.extend,
      hLogger]
  · exact ⟨s.calls, hCalls, rfl⟩
  · exact ⟨s.faults, hFaults, rfl⟩

end World

namespace Session

open World (SameSince)

variable {a b : World}

/- Setting the level does the same to both loggers. -/
theorem setLevel_sameSince
    (level : Json)
    (hWorlds : SameSince w v a b) :
    (step .fresh (.setLevel level) b).1 =
        (step .fresh (.setLevel level) a).1 ∧
      SameSince w v (step .fresh (.setLevel level) a).2
        (step .fresh (.setLevel level) b).2 := by
  simp only [step, setLevel, hWorlds.logger_eq]
  cases a.logger.setLevel level with
  | error e => exact ⟨rfl, hWorlds⟩
  | ok logger =>
      refine ⟨rfl, ?_⟩
      exact
        { hWorlds with
          present := by
            rw [hWorlds.present]
            rfl }

theorem step_sameSince
    (s : Step)
    (hWorlds : SameSince w v a b) :
    (step .fresh s b).1 = (step .fresh s a).1 ∧
      SameSince w v (step .fresh s a).2
        (step .fresh s b).2 := by
  by_cases hLevel : s.SetsLevel
  · cases s with
    | setLevel level =>
        exact setLevel_sameSince level hWorlds
    | _ => exact hLevel.elim
  · have hKnown : Keeper.fresh.Known := trivial
    rcases parallel_step hKnown (fun hKept => absurd rfl hKept)
        hLevel hWorlds.parallel with
      ⟨hResults, hAfter⟩
    exact ⟨hResults,
      hWorlds.trans (hAfter.sameSince hWorlds.logger_eq)⟩

theorem run_sameSince
    (steps : List Step)
    (hWorlds : SameSince w v a b) :
    List.Forall₂
      (fun r q => q.1 = r.1 ∧ SameSince w v r.2 q.2)
      (run .fresh steps a) (run .fresh steps b) := by
  induction steps generalizing a b with
  | nil => exact .nil
  | cons s ss ih =>
      have hStep := step_sameSince s hWorlds
      rw [run_cons, run_cons]
      exact .cons hStep (ih hStep.2)

/-
  A provisioner that is kept and one for each request give
  the same, step by step.  Every step goes by the
  configuration that stands when it is taken, and does the
  same whatever happened before.
-/
theorem kept_agrees_with_fresh
    (steps : List Step)
    (w : World) :
    run .standard steps w = run .fresh steps w ∧
      Follows UsesCurrent w steps (run .standard steps w) ∧
      ∀ journal calls faults,
        let v := w.withPast journal calls faults
        List.Forall₂
          (fun r q => q.1 = r.1 ∧ SameSince w v r.2 q.2)
          (run .standard steps w) (run .standard steps v) := by
  refine ⟨run_standard_eq steps w, ?_, ?_⟩
  · exact run_follows step_usesCurrent steps w
  · intro journal calls faults v
    rw [run_standard_eq, run_standard_eq]
    exact run_sameSince steps
      (World.sameSince_self w journal calls faults)

end Session

end LocalCert
