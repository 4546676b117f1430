import LocalCert.Proofs.World.Abreast

/-
  What a world keeps of the past: its logger with the
  journal, the calls, and the faults that removals met.
  Whatever a strategy does in two worlds that differ in the
  past only, it gives the same and adds the same to both; a
  logger only leaves out events that it is not set to write.

  Main declarations:
    * `Chronicle`
    * `Chronicle.extend`
    * `World.Parallel`
    * `Workspace.parallel_within`
    * `Tool.parallel_run`
    * `Provisioner.parallel_provision`
-/

------------------------------------------------------------
-- Chronicles
------------------------------------------------------------

namespace LocalCert

/- What a world keeps of the past. -/
structure Chronicle where
  logger : Logger
  journal : List Event
  calls : List Call
  faultsMet : List Files.Fault

/-
  What happens in a stretch of work: the events, whether
  they are written or not, the calls and the faults met.
-/
structure Stretch where
  events : List Event
  calls : List Call
  faults : List Files.Fault

namespace Stretch

/- Nothing happens. -/
def none : Stretch :=
  ⟨[], [], []⟩

/- A stretch with one more event. -/
def event
    (s : Stretch)
    (e : Event) : Stretch :=
  { s with events := s.events ++ [e] }

/- A stretch with one more call. -/
def call
    (s : Stretch)
    (c : Call) : Stretch :=
  { s with calls := s.calls ++ [c] }

/- A stretch with one more fault. -/
def fault
    (s : Stretch)
    (f : Files.Fault) : Stretch :=
  { s with faults := s.faults ++ [f] }

end Stretch

namespace Chronicle

/- A chronicle after a stretch of work. -/
def extend
    (g : Chronicle)
    (s : Stretch) : Chronicle where
  logger := g.logger
  journal :=
    g.journal ++
      s.events.filter (fun e => g.logger.isEnabled e.level)
  calls := g.calls ++ s.calls
  faultsMet := g.faultsMet ++ s.faults

/- A chronicle in which an event is reported. -/
def report
    (g : Chronicle)
    (e : Event) : Chronicle :=
  { g with
    journal :=
      g.journal ++
        if g.logger.isEnabled e.level then [e] else [] }

theorem extend_none
    (g : Chronicle) :
    g.extend .none = g := by
  simp [extend, Stretch.none]

theorem extend_event
    (g : Chronicle)
    (s : Stretch)
    (e : Event) :
    g.extend (s.event e) = (g.extend s).report e := by
  have hOne :
      [e].filter (fun e => g.logger.isEnabled e.level) =
        if g.logger.isEnabled e.level then [e] else [] := by
    rw [List.filter_cons, List.filter_nil]
  simp only [extend, report, Stretch.event,
    List.filter_append, List.append_assoc, hOne]
  rfl

end Chronicle

------------------------------------------------------------
-- Worlds And Their Chronicles
------------------------------------------------------------

namespace World

/- The chronicle of a world. -/
def chronicle
    (w : World) : Chronicle :=
  ⟨w.logger, w.journal, w.calls, w.faultsMet⟩

/- A world with another chronicle. -/
def withChronicle
    (w : World)
    (g : Chronicle) : World :=
  { w with
    logger := g.logger
    journal := g.journal
    calls := g.calls
    faultsMet := g.faultsMet }

@[simp] theorem chronicle_withChronicle
    (w : World)
    (g : Chronicle) :
    (w.withChronicle g).chronicle = g := rfl

@[simp] theorem withChronicle_withChronicle
    (w : World)
    (g h : Chronicle) :
    (w.withChronicle g).withChronicle h =
      w.withChronicle h := rfl

theorem withChronicle_chronicle
    (w : World) :
    w.withChronicle w.chronicle = w := rfl

/- An event is reported in the chronicle only. -/
theorem report_eq_withChronicle
    (w : World)
    (e : Event) :
    w.report e = w.withChronicle (w.chronicle.report e) := by
  unfold report
  cases hEnabled : w.logger.isEnabled e.level <;>
    simp [withChronicle, chronicle, Chronicle.report,
      hEnabled]

/-
  Whether two worlds are the same but for their chronicles,
  which have come of two others by the same stretch of work.
-/
def Parallel
    (g h : Chronicle)
    (w v : World) : Prop :=
  ∃ s : Stretch,
    w.chronicle = g.extend s ∧
      v = w.withChronicle (h.extend s)

variable {g h : Chronicle}
variable {w v : World}

/- Two worlds that are about to start. -/
theorem parallel_self
    (w : World)
    (h : Chronicle) :
    Parallel w.chronicle h w (w.withChronicle h) := by
  refine ⟨.none, ?_, ?_⟩
  · rw [Chronicle.extend_none]
  · rw [Chronicle.extend_none]

theorem Parallel.report
    (hWorlds : Parallel g h w v)
    (e : Event) :
    Parallel g h (w.report e) (v.report e) := by
  rcases hWorlds with ⟨s, hPast, rfl⟩
  refine ⟨s.event e, ?_, ?_⟩
  · rw [report_eq_withChronicle, chronicle_withChronicle,
      hPast, Chronicle.extend_event]
  · rw [report_eq_withChronicle, report_eq_withChronicle,
      chronicle_withChronicle, withChronicle_withChronicle,
      withChronicle_withChronicle, Chronicle.extend_event]

/- Both worlds note the same call. -/
theorem Parallel.note
    (hWorlds : Parallel g h w v)
    (c : Call) :
    Parallel g h (w.note c) (v.note c) := by
  rcases hWorlds with ⟨s, hPast, rfl⟩
  simp only [chronicle, Chronicle.extend,
    Chronicle.mk.injEq] at hPast
  refine ⟨s.call c, ?_, ?_⟩
  · simp [World.note, chronicle, Chronicle.extend,
      Stretch.call, hPast]
  · simp [World.note, withChronicle, Chronicle.extend,
      Stretch.call]

/- A removal meets the same fault in both worlds. -/
theorem Parallel.meet
    (hWorlds : Parallel g h w v)
    (f : Files.Fault) :
    Parallel g h { w with faultsMet := w.faultsMet ++ [f] }
      { v with faultsMet := v.faultsMet ++ [f] } := by
  rcases hWorlds with ⟨s, hPast, rfl⟩
  simp only [chronicle, Chronicle.extend,
    Chronicle.mk.injEq] at hPast
  refine ⟨s.fault f, ?_, ?_⟩
  · simp [chronicle, Chronicle.extend, Stretch.fault, hPast]
  · simp [withChronicle, Chronicle.extend, Stretch.fault]

/- A change that neither sees nor touches the chronicle. -/
theorem Parallel.change
    {f : World → World}
    (hWorlds : Parallel g h w v)
    (hBlind :
      ∀ u k, f (u.withChronicle k) = (f u).withChronicle k) :
    Parallel g h (f w) (f v) := by
  have hKept : (f w).chronicle = w.chronicle := by
    have hSame := hBlind w w.chronicle
    rw [withChronicle_chronicle] at hSame
    rw [hSame, chronicle_withChronicle]
  rcases hWorlds with ⟨s, hPast, rfl⟩
  exact ⟨s, hKept.trans hPast, hBlind w _⟩

end World

open World (Parallel)

variable {g h : Chronicle}
variable {w v : World}

theorem Act.parallel_report
    (e : Event) :
    Act.Relates (Parallel g h) Eq (Act.report e)
      (Act.report e) := by
  intro w v hWorlds
  exact ⟨rfl, hWorlds.report e⟩

/- An action that neither sees nor touches the chronicle. -/
theorem Act.parallel_of
    {α : Type}
    {f : World → Except Failure α × World}
    (hBlind :
      ∀ u k,
        f (u.withChronicle k) =
          ((f u).1, (f u).2.withChronicle k)) :
    Act.Relates (Parallel g h) Eq (Act.of f) (Act.of f) := by
  refine Act.Relates.of ?_
  intro w v hWorlds
  have hResults : (f w).1 = (f v).1 := by
    rcases hWorlds with ⟨s, _, rfl⟩
    rw [hBlind]
  refine ⟨?_, ?_⟩
  · rw [hResults]
    exact Match.refl (fun _ => rfl) _
  · refine hWorlds.change (f := fun u => (f u).2) ?_
    intro u k
    rw [hBlind]

------------------------------------------------------------
-- Tools
------------------------------------------------------------

namespace Tool

theorem parallel_start
    (c : Command) :
    Act.Relates (Parallel g h) Eq (start c) (start c) := by
  intro w v hWorlds
  have hNoted := hWorlds.note c.call
  have hNext : v.behaviourAt 0 = w.behaviourAt 0 := by
    rcases hWorlds with ⟨s, _, rfl⟩
    rfl
  rw [runIn_start, runIn_start]
  refine ⟨congrArg Behaviour.ending hNext.symm, ?_⟩
  exact hNoted.change
    (f := fun u =>
      { u with
        script := u.script.tail
        files :=
          leaveFiles c.argv (u.behaviourAt 0) u.cwd
            u.files })
    (fun _ _ => rfl)

theorem parallel_run
    (c : Command) :
    Act.Relates (Parallel g h) Eq (run c) (run c) := by
  unfold run
  split
  · exact Act.Relates.fail _
  · refine Act.Relates.bind (Act.parallel_report _) ?_
    intro _ _ _
    refine Act.Relates.bind (parallel_start c) ?_
    rintro ending _ rfl
    exact Act.parallel_of (fun _ _ => rfl)

end Tool

------------------------------------------------------------
-- Workspaces
------------------------------------------------------------

namespace Workspace

/- Names are tried whatever happened before. -/
theorem tryNames_withChronicle
    (directory start : String)
    (tries : Nat)
    (w : World)
    (k : Chronicle) :
    tryNames directory start tries (w.withChronicle k) =
      ((tryNames directory start tries w).1,
        (tryNames directory start tries w).2.withChronicle
          k) := by
  induction tries generalizing w with
  | zero => rfl
  | succ tries ih =>
      have hSame :
          w.withChronicle k =
            { w with
              logger := k.logger
              journal := k.journal
              calls := k.calls
              faultsMet := k.faultsMet } := rfl
      simp only [hSame, tryNames]
      split
      · rfl
      · split
        · rfl
        · exact ih { w with namesTried := w.namesTried + 1 }
        · rfl

theorem parallel_create
    (start : String)
    (parent : Option Path) :
    Act.Relates (Parallel g h) Eq (create start parent)
      (create start parent) := by
  refine Act.Relates.bind (Q := Eq) ?_ ?_
  · refine Act.parallel_of ?_
    intro u k
    have hDirectory :
        directoryOf (u.withChronicle k) parent =
          directoryOf u parent := rfl
    rw [hDirectory, tryNames_withChronicle]
  · rintro path _ rfl
    refine Act.Relates.bind (Act.parallel_report _) ?_
    intro _ _ _
    exact Act.Relates.pure rfl

/- Closing a workspace, in terms of the fault it meets. -/
theorem close_eq_noteFault
    (ws : Path)
    (w : World) :
    close ws w =
      let closed :=
        { w with
          removalsTried := w.removalsTried + 1
          files := closedFiles ws w }
      match closingFault ws w with
      | none => closed
      | some f => noteFault ws f closed := by
  simp only [close, closingFault, closedFiles]
  cases w.nextRemovalFault with
  | some words => rfl
  | none =>
      rcases w.files.removeAll w.cwd ws.text with ⟨f, files⟩
      cases f <;> rfl

/- Both removals meet the same fault, or none. -/
theorem parallel_close
    (ws : Path)
    (hWorlds : Parallel g h w v) :
    Parallel g h (close ws w) (close ws v) := by
  have hFault : closingFault ws v = closingFault ws w := by
    rcases hWorlds with ⟨s, _, rfl⟩
    rfl
  have hClosed :=
    hWorlds.change
      (f := fun u =>
        { u with
          removalsTried := u.removalsTried + 1
          files := closedFiles ws u })
      (fun _ _ => rfl)
  rw [close_eq_noteFault, close_eq_noteFault, hFault]
  cases closingFault ws w with
  | none => exact hClosed
  | some f =>
      exact (hClosed.meet f).report
        (.workspaceNotRemoved ws.text f)

theorem parallel_within
    {α β : Type}
    {Q : α → β → Prop}
    {start : String}
    {parent : Option Path}
    {body : Path → Act α}
    {twin : Path → Act β}
    (hBody :
      ∀ path,
        Act.Relates (Parallel g h) Q (body path)
          (twin path)) :
    Act.Relates (Parallel g h) Q (within start parent body)
      (within start parent twin) := by
  refine Act.Relates.bind (parallel_create start parent) ?_
  rintro path _ rfl
  exact Act.Relates.ensuring (hBody path)
    (fun _ _ => parallel_close path)

theorem parallel_readMaterial
    (keyPath certPath : String) :
    Act.Relates (Parallel g h) Eq
      (readMaterial keyPath certPath)
      (readMaterial keyPath certPath) := by
  refine Act.parallel_of ?_
  intro u k
  have hText :
      ∀ path, readText (u.withChronicle k) path =
        readText u path := fun _ => rfl
  simp only [hText]
  cases readText u keyPath with
  | error f => rfl
  | ok key => cases readText u certPath <;> rfl

end Workspace

------------------------------------------------------------
-- Strategies
------------------------------------------------------------

theorem Trusted.parallel_issue
    (config : Config)
    (hostname : String) :
    Act.Relates (Parallel g h) Eq (issue config hostname)
      (issue config hostname) := by
  refine Act.Relates.bind (Q := Eq)
    (Workspace.parallel_within ?_) ?_
  · intro ws
    exact relates_attempt (Tool.parallel_run _)
      (Workspace.parallel_readMaterial _ _)
  · rintro m _ rfl
    exact Act.Relates.telling (Act.parallel_report _) rfl

theorem Manual.parallel_issue
    (config : Config)
    (hostname : String) :
    Act.Relates (Parallel g h) Eq (issue config hostname)
      (issue config hostname) := by
  refine Act.Relates.bind (Q := Eq)
    (Workspace.parallel_within ?_) ?_
  · intro ws
    exact relates_attempt (fun c _ => Tool.parallel_run c)
      (Workspace.parallel_readMaterial _ _)
  · rintro m _ rfl
    exact Act.Relates.telling (Act.parallel_report _) rfl

section

variable {config : World → Config}

theorem Strategy.parallel_trusted
    (hConfig : ∀ u k, config (u.withChronicle k) = config u)
    (hostname : String) :
    Act.Relates (Parallel g h) Eq
      ((Strategy.trusted config).issue hostname)
      ((Strategy.trusted config).issue hostname) := by
  refine Act.Relates.bind (Q := Eq) (Act.Relates.look ?_) ?_
  · rintro w v ⟨s, _, rfl⟩
    exact (hConfig w _).symm
  · rintro c _ rfl
    exact Trusted.parallel_issue c hostname

theorem Strategy.parallel_manual
    (hConfig : ∀ u k, config (u.withChronicle k) = config u)
    (hostname : String) :
    Act.Relates (Parallel g h) Eq
      ((Strategy.manual config).issue hostname)
      ((Strategy.manual config).issue hostname) := by
  refine Act.Relates.bind (Q := Eq) (Act.Relates.look ?_) ?_
  · rintro w v ⟨s, _, rfl⟩
    exact (hConfig w _).symm
  · rintro c _ rfl
    exact Manual.parallel_issue c hostname

end

/- Given answers depend on the calls so far. -/
theorem Strategy.parallel_scripted
    (hCalls : h.calls = g.calls)
    (position : Nat)
    (a : Answers)
    (hostname : String) :
    Act.Relates (Parallel g h) Eq
      ((scripted position a).issue hostname)
      ((scripted position a).issue hostname) := by
  intro w v hWorlds
  have hSame : v.calls = w.calls := by
    rcases hWorlds with ⟨s, hPast, rfl⟩
    have hLeft := congrArg Chronicle.calls hPast
    simp only [World.chronicle, Chronicle.extend] at hLeft
    simp [World.withChronicle, Chronicle.extend, hLeft,
      hCalls]
  simp only [scripted, Act.runIn_of, hSame]
  exact ⟨Match.refl (fun _ => rfl) _, hWorlds.note _⟩

namespace Provisioner

/-
  The standard provisioner gives the same in both worlds,
  whatever happened in them before.
-/
theorem parallel_provision
    {config : World → Config}
    (hConfig : ∀ u k, config (u.withChronicle k) = config u)
    (hostname : String) :
    Act.Relates (Parallel g h) Eq
      ((standard config).provision hostname)
      ((standard config).provision hostname) := by
  apply relates_provision Act.parallel_report
  apply forall_standard
  · exact Strategy.parallel_trusted hConfig
  · exact Strategy.parallel_manual hConfig

end Provisioner

end LocalCert
