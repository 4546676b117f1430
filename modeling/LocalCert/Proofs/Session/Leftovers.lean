import LocalCert.Proofs.World.Sides
import LocalCert.Proofs.World.Warnings

/-
  What removals that fail leave behind is not seen again.
  Two runs of a session in which different removals fail
  give the same results, start the same processes and tell
  the same but for the warnings of those removals; nothing
  that is left is read; and each removal that fails is
  warned of once, before its attempt is told to have ended.

  Main declarations:
    * `Session.Orderly`
    * `Session.Paired`
    * `Session.step_paired`
    * `Session.Overlooks`
    * `Session.Warns`
    * `Session.Untroubled`
    * `Session.run_overlooks_leftovers`
-/

------------------------------------------------------------
-- Steps
------------------------------------------------------------

namespace LocalCert

namespace Session

/- Whether a step asks for material. -/
def Step.Issues : Step → Prop
  | .provision _ => True
  | .trusted _ => True
  | .manual _ => True
  | _ => False

/- Steps that differ at most in which removals fail. -/
inductive Step.Twin : Step → Step → Prop where
  | same (s : Step) : Twin s s
  | setRemovalFault (words others : Option String) :
      Twin (.setRemovalFault words) (.setRemovalFault others)

/-
  Whether a step that asks for material is taken where tools
  keep to the workspaces of their attempts, and where the
  directory for workspaces is not in anything that has come
  about since the session started.
-/
def Orderly
    (base : Files.Tree)
    (before : World)
    (s : Step)
    (_ : Except Error (Option Material) × World) : Prop :=
  s.Issues →
    before.Keeping ∧
      ∀ m ∈ Files.wayTo before.cwd before.directory,
        ¬ base.Leftover before.files m

/- Whether all steps of a session are orderly. -/
structure OrderlyRun
    (keeper : Keeper)
    (base : Files.Tree)
    (w : World)
    (steps : List Step) : Prop where
  follows :
    Follows (Orderly base) w steps (run keeper steps w)

------------------------------------------------------------
-- Two Worlds Of A Session
------------------------------------------------------------

/-
  Whether two worlds differ only in what has been left
  behind, in what was warned of, and in which removals fail.
-/
structure Paired
    (base : Files.Tree)
    (w v : World) : Prop where
  settings : w.SameSettings v
  script : v.script = w.script
  namesTried : v.namesTried = w.namesTried
  calls : v.calls = w.calls
  told : v.told = w.told
  files :
    ∃ places,
      Files.Parted base places w.namesTried w.files v.files

variable {base : Files.Tree}
variable {keeper : Keeper}
variable {w v : World}

/- An action that gives the same in both keeps the pair. -/
theorem Paired.issued
    {act : Act Material}
    (hPaired : Paired base w v)
    (hCovers :
      ∀ places,
        Files.Parted base places w.namesTried w.files
          v.files →
        (Files.View.apart places).Covers w.cwd w.directory)
    (hAct :
      Act.Relates
        (World.Abreast (World.Sides base w) w v) Eq
        act act) :
    (issued act v).1 = (issued act w).1 ∧
      Paired base (issued act w).2 (issued act v).2 := by
  rcases hPaired.files with ⟨places, hParted⟩
  have hStart :
      World.Abreast (World.Sides base w) w v w v :=
    World.abreast_self hPaired.settings hPaired.script
      hPaired.namesTried
      ⟨places, hParted, hCovers places hParted⟩
  rcases hAct w v hStart with ⟨hResults, hAfter⟩
  rw [issued_eq, issued_eq]
  refine ⟨?_, ?_⟩
  · rw [hResults.eq]
  · exact
      { settings :=
          ⟨hAfter.cwd, hAfter.tempDir, hAfter.config,
            hAfter.logger⟩
        script := hAfter.script
        namesTried := hAfter.namesTried
        calls := by
          rcases hAfter.calls with ⟨started, hLeft, hRight⟩
          rw [hLeft, hRight, hPaired.calls]
        told := by
          rcases hAfter.told with ⟨events, hLeft, hRight⟩
          rw [hLeft, hRight, hPaired.told]
        files := by
          rcases hAfter.files with ⟨after, hLater, _⟩
          exact ⟨after, hLater⟩ }

/- It does not matter which removals will fail. -/
theorem Paired.setRemovalFault
    (hPaired : Paired base w v)
    (words others : Option String) :
    Paired base (w.setRemovalFault words)
      (v.setRemovalFault others) where
  settings := { hPaired.settings with }
  script := hPaired.script
  namesTried := hPaired.namesTried
  calls := hPaired.calls
  told := hPaired.told
  files := hPaired.files

/- In orderly steps nothing left is on the way. -/
theorem Paired.covers
    {s : Step}
    {r q : Except Error (Option Material) × World}
    {places : List Files.Location}
    (hPaired : Paired base w v)
    (hParted :
      Files.Parted base places w.namesTried w.files v.files)
    (hIssues : s.Issues)
    (hOrderly : Orderly base w s r)
    (hTwin : Orderly base v s q) :
    (Files.View.apart places).Covers w.cwd w.directory := by
  have hDirectory : v.directory = w.directory := by
    simp only [World.directory, Workspace.directoryOf,
      hPaired.settings.config, hPaired.settings.tempDir]
  have hTwinClear := (hTwin hIssues).2
  rw [hDirectory, hPaired.settings.cwd] at hTwinClear
  intro m hWay p hp hAbove
  have hFree := hParted.free p hp
  rcases hParted.there p hp with hThere | hThere
  · exact (hOrderly hIssues).2 m hWay
      ⟨p, hAbove, hFree, hThere⟩
  · exact hTwinClear m hWay ⟨p, hAbove, hFree, hThere⟩

/- A strategy that is known gives the same in both. -/
theorem relates_sides_known
    {s : Strategy}
    (hKnown : s.Known)
    (hKeeping : w.Keeping)
    (hCalls : v.calls = w.calls)
    (hostname : String) :
    Act.Relates
      (World.Abreast (World.Sides base w) w v) Eq
      (s.issue hostname) (s.issue hostname) := by
  cases hKnown with
  | trusted =>
      exact Strategy.relates_sides_trusted hKeeping
        (fun _ => id) hostname
  | manual =>
      exact Strategy.relates_sides_manual hKeeping
        (fun _ => id) hostname
  | scripted position a =>
      exact Strategy.relates_sides_scripted hCalls position a
        hostname

theorem relates_sides_request
    (hKeeper : keeper.Known)
    (hKeeping : w.Keeping)
    (hCalls : v.calls = w.calls)
    (hostname : String) :
    Act.Relates
      (World.Abreast (World.Sides base w) w v) Eq
      (request keeper hostname w)
      (request keeper hostname w) := by
  cases keeper with
  | kept p =>
      apply Provisioner.relates_provision Act.abreast_report
      intro s hs h
      exact relates_sides_known (hKeeper s hs) hKeeping hCalls h
  | fresh =>
      apply Provisioner.relates_provision Act.abreast_report
      apply Provisioner.forall_standard
      · exact Strategy.relates_sides_trusted hKeeping
          (fun _ _ => rfl)
      · exact Strategy.relates_sides_manual hKeeping
          (fun _ _ => rfl)

/- An orderly step gives the same in both worlds. -/
theorem step_paired
    {s t : Step}
    (hKeeper : keeper.Known)
    (hTwin : s.Twin t)
    (hPaired : Paired base w v)
    (hLeft : Orderly base w s (step keeper s w))
    (hRight : Orderly base v t (step keeper t v)) :
    (step keeper t v).1 = (step keeper s w).1 ∧
      Paired base (step keeper s w).2
        (step keeper t v).2 := by
  cases hTwin with
  | setRemovalFault words others =>
      exact ⟨rfl, hPaired.setRemovalFault words others⟩
  | same =>
      have hIssued :
          ∀ act : Act Material,
            s.Issues →
            Act.Relates
              (World.Abreast (World.Sides base w) w v) Eq
              act act →
            (issued act v).1 = (issued act w).1 ∧
              Paired base (issued act w).2
                (issued act v).2 := by
        intro act hIssues hAct
        refine hPaired.issued ?_ hAct
        intro places hParted
        exact hPaired.covers hParted hIssues hLeft hRight
      cases s with
      | provision hostname =>
          have hSame :
              request keeper
                  (hostname.getD Provisioner.defaultHostname)
                  v =
                request keeper
                  (hostname.getD Provisioner.defaultHostname)
                  w := by
            unfold request
            rw [hPaired.settings.config]
          simp only [step, hSame]
          exact hIssued _ trivial
            (relates_sides_request hKeeper (hLeft trivial).1
              hPaired.calls _)
      | trusted hostname =>
          simp only [step]
          exact hIssued _ trivial
            (relates_sides_known .trusted (hLeft trivial).1
              hPaired.calls hostname)
      | manual hostname =>
          simp only [step]
          exact hIssued _ trivial
            (relates_sides_known .manual (hLeft trivial).1
              hPaired.calls hostname)
      | assign settings =>
          refine ⟨rfl, { hPaired with settings := ?_ }⟩
          exact
            { hPaired.settings with
              config := by
                simp only [step, hPaired.settings.config] }
      | setLevel level =>
          simp only [step, setLevel, hPaired.settings.logger]
          cases w.logger.setLevel level with
          | error e => exact ⟨rfl, hPaired⟩
          | ok logger =>
              refine ⟨rfl, { hPaired with settings := ?_ }⟩
              exact { hPaired.settings with logger := rfl }
      | addBehaviours behaviours =>
          simp only [step, hPaired.script]
          exact
            ⟨trivial,
              { hPaired with
                settings := { hPaired.settings with }
                script := rfl }⟩
      | setRemovalFault words =>
          exact ⟨rfl, hPaired.setRemovalFault words words⟩

------------------------------------------------------------
-- What Runs Have In Common
------------------------------------------------------------

/-
  Whether two steps gave the same result and, with all that
  was done before them, started the same processes and told
  the same but for removals that failed.
-/
structure SameCourse
    (r q : Except Error (Option Material) × World) :
    Prop where
  result : q.1 = r.1
  calls : q.2.calls = r.2.calls
  told : q.2.told = r.2.told

theorem run_paired
    {steps twins : List Step}
    (hKeeper : keeper.Known)
    (hSteps : List.Forall₂ Step.Twin steps twins)
    (hPaired : Paired base w v)
    (hLeft :
      Follows (Orderly base) w steps (run keeper steps w))
    (hRight :
      Follows (Orderly base) v twins (run keeper twins v)) :
    List.Forall₂ SameCourse (run keeper steps w)
      (run keeper twins v) := by
  induction hSteps generalizing w v with
  | nil => exact .nil
  | cons hTwin _ ih =>
      rw [run_cons] at hLeft hRight ⊢
      rw [run_cons]
      rcases step_paired hKeeper hTwin hPaired hLeft.1
          hRight.1 with
        ⟨hResult, hNext⟩
      exact .cons ⟨hResult, hNext.calls, hNext.told⟩
        (ih hNext hLeft.2 hRight.2)

------------------------------------------------------------
-- Reading What Is Left
------------------------------------------------------------

/-
  Whether a step gives the same result and starts the same
  processes when anything else, or nothing, stands in the
  places where things have come about since the session
  started.
-/
def Overlooks
    (keeper : Keeper)
    (base : Files.Tree)
    (before : World)
    (s : Step)
    (r : Except Error (Option Material) × World) : Prop :=
  ∀ files : Files.Tree,
    files.WellFormed →
    (∀ m,
      ¬ base.Leftover before.files m →
      files.at? m = before.files.at? m) →
    let other :=
      step keeper s { before with files := files }
    other.1 = r.1 ∧ other.2.calls = r.2.calls

/- Other things in the places of what is left. -/
theorem Paired.withFiles
    {files : Files.Tree}
    (hPaired : Paired base w w)
    (hFiles : files.WellFormed)
    (hSame :
      ∀ m,
        ¬ base.Leftover w.files m →
        files.at? m = w.files.at? m) :
    Paired base w { w with files := files } := by
  rcases hPaired.files with ⟨places, hParted⟩
  have hRight :
      base.SameIn (.apart places) files := by
    intro m hSees
    rw [hSame m]
    · exact hParted.leftSame m hSees
    · rintro ⟨l, hAbove, hFree, hThere⟩
      apply hThere
      rw [← hParted.leftSame l, hFree]
      intro p hp hOver
      exact hSees p hp (hOver.trans hAbove)
  have hThere :
      ∀ l ∈ places,
        w.files.at? l ≠ none ∨ files.at? l ≠ none := by
    intro l hl
    rcases hParted.there l hl with hThere | hThere
    · exact .inl hThere
    · exact .inl hThere
  exact
    { hPaired with
      settings := { hPaired.settings with }
      files :=
        ⟨places,
          { hParted with
            right := hFiles
            rightSame := hRight
            there := hThere }⟩ }

/- The directory for workspaces is still clear of it all. -/
theorem Orderly.withFiles
    {files : Files.Tree}
    {s : Step}
    {r q : Except Error (Option Material) × World}
    (hOrderly : Orderly base w s r)
    (hSame :
      ∀ m,
        ¬ base.Leftover w.files m →
        files.at? m = w.files.at? m) :
    Orderly base { w with files := files } s q := by
  intro hIssues
  rcases hOrderly hIssues with ⟨hKeeping, hClear⟩
  refine ⟨hKeeping, ?_⟩
  rintro m hWay ⟨l, hAbove, hFree, hThere⟩
  have hOther : ¬ base.Leftover w.files l := by
    rintro ⟨k, hOver, hLeft⟩
    exact hClear m hWay ⟨k, hOver.trans hAbove, hLeft⟩
  rw [hSame l hOther] at hThere
  exact hClear m hWay ⟨l, hAbove, hFree, hThere⟩

theorem run_overlooks
    {steps : List Step}
    (hKeeper : keeper.Known)
    (hPaired : Paired base w w)
    (hRun :
      Follows (Orderly base) w steps (run keeper steps w)) :
    Follows (Overlooks keeper base) w steps
      (run keeper steps w) := by
  refine run_follows_of (fun v => Paired base v v) ?_
    hPaired hRun
  intro v s hSelf hOrderly
  refine ⟨?_, ?_⟩
  · intro files hFiles hSame other
    rcases step_paired hKeeper (.same s)
        (hSelf.withFiles hFiles hSame) hOrderly
        (hOrderly.withFiles hSame) with
      ⟨hResult, hNext⟩
    exact ⟨hResult, hNext.calls⟩
  · exact (step_paired hKeeper (.same s) hSelf hOrderly
      hOrderly).2

------------------------------------------------------------
-- Warnings
------------------------------------------------------------

/- The strategies that a step may try, in their order. -/
def strategies
    (keeper : Keeper)
    (before : World) : Step → List Strategy
  | .provision _ =>
      match keeper with
      | .kept p => p.fallible ++ [p.last]
      | .fresh =>
          let p := Provisioner.standard (fun _ => before.config)
          p.fallible ++ [p.last]
  | .trusted _ => [.trusted World.config]
  | .manual _ => [.manual World.config]
  | _ => []

/-
  Whether, if warnings are written, a step warned of each
  removal that failed in it, once and in order, and each of
  its attempts did so before it was told to have ended.
-/
def Warns
    (keeper : Keeper)
    (before : World)
    (s : Step)
    (r : Except Error (Option Material) × World) : Prop :=
  before.logger.isEnabled Level.warning = true →
    (∃ faults,
        r.2.faultsMet = before.faultsMet ++ faults ∧
          r.2.journal.filterMap Event.removalFault? =
            before.journal.filterMap Event.removalFault? ++
              faults) ∧
      (r.2.journal = before.journal ∨
        ∃ hostname,
          Provisioner.Tried hostname
            (strategies keeper before s) before r.2)

/- A step that tried no strategy warned of nothing. -/
theorem warns_of_quiet
    {s : Step}
    {r : Except Error (Option Material) × World}
    (hJournal : r.2.journal = w.journal)
    (hFaults : r.2.faultsMet = w.faultsMet) :
    Warns keeper w s r := by
  intro _
  refine ⟨⟨[], ?_, ?_⟩, .inl hJournal⟩
  · rw [hFaults, List.append_nil]
  · rw [hJournal, List.append_nil]

theorem warns_of_issued
    {s : Step}
    {act : Act Material}
    (hostname : String)
    (hTried :
      w.logger.isEnabled Level.warning = true →
      (act.runIn w).2 = w ∨
        Provisioner.Tried hostname (strategies keeper w s) w
          (act.runIn w).2) :
    Warns keeper w s (issued act w) := by
  rw [issued_eq]
  intro hEnabled
  rcases hTried hEnabled with hSame | hTried
  · refine warns_of_quiet ?_ ?_ hEnabled
    · rw [hSame]
    · rw [hSame]
  · exact ⟨hTried.faultsMet, .inr ⟨hostname, hTried⟩⟩

theorem request_warns
    (hKeeper : keeper.Known)
    (hostname : Option String) :
    Warns keeper w (.provision hostname)
      (step keeper (.provision hostname) w) := by
  simp only [step]
  apply warns_of_issued
    (hostname.getD Provisioner.defaultHostname)
  intro hEnabled
  cases keeper with
  | kept p =>
      apply Provisioner.tried_provision _ hEnabled
      intro s hs h v hWarned
      exact (hKeeper s hs).reports hWarned h
  | fresh =>
      apply Provisioner.tried_provision _ hEnabled
      apply Provisioner.forall_standard
      · intro h v hWarned
        exact Strategy.reports_trusted hWarned _ h
      · intro h v hWarned
        exact Strategy.reports_manual hWarned _ h

/- Each step warns of the removals that fail in it. -/
theorem step_warns
    (hKeeper : keeper.Known)
    (w : World)
    (s : Step) :
    Warns keeper w s (step keeper s w) := by
  cases s with
  | provision hostname => exact request_warns hKeeper hostname
  | trusted hostname =>
      simp only [step]
      apply warns_of_issued hostname
      intro hEnabled
      rcases Strategy.reports_trusted hEnabled World.config
          hostname with
        ⟨a, hReports⟩
      exact .inr (.last hReports)
  | manual hostname =>
      simp only [step]
      apply warns_of_issued hostname
      intro hEnabled
      rcases Strategy.reports_manual hEnabled World.config
          hostname with
        ⟨a, hReports⟩
      exact .inr (.last hReports)
  | setLevel level =>
      simp only [step, setLevel]
      cases w.logger.setLevel level with
      | error e => exact warns_of_quiet rfl rfl
      | ok logger => exact warns_of_quiet rfl rfl
  | _ => exact warns_of_quiet rfl rfl

------------------------------------------------------------
-- Sessions
------------------------------------------------------------

/-
  Whether no step of a session reads what earlier ones left,
  and each warns of the removals that failed in it.
-/
structure Untroubled
    (keeper : Keeper)
    (base : Files.Tree)
    (w : World)
    (steps : List Step) : Prop where
  overlooks :
    Follows (Overlooks keeper base) w steps
      (run keeper steps w)
  warns :
    Follows (Warns keeper) w steps (run keeper steps w)

/-
  Two runs of a session that differ only in which removals
  fail have the same course, and neither is troubled by what
  is left in it, if tools keep to their workspaces and the
  directory for workspaces is never in one that was made.
-/
theorem run_overlooks_leftovers
    (keeper : Keeper)
    (hKeeper : keeper.Known)
    (steps twins : List Step)
    (hSteps : List.Forall₂ Step.Twin steps twins)
    (w : World)
    (hFiles : w.files.WellFormed)
    (removalFaults : Nat → Option String)
    (hRun : OrderlyRun keeper w.files w steps)
    (hTwin :
      OrderlyRun keeper w.files
        { w with removalFaults := removalFaults } twins) :
    let v := { w with removalFaults := removalFaults }
    List.Forall₂ SameCourse (run keeper steps w)
        (run keeper twins v) ∧
      Untroubled keeper w.files w steps ∧
      Untroubled keeper w.files v twins := by
  intro v
  have hPair : Paired w.files w v :=
    { settings := ⟨rfl, rfl, rfl, rfl⟩
      script := rfl
      namesTried := rfl
      calls := rfl
      told := rfl
      files := ⟨[], .self hFiles w.namesTried⟩ }
  have hUntroubled :
      ∀ x ss,
        Paired w.files x x →
        OrderlyRun keeper w.files x ss →
        Untroubled keeper w.files x ss := by
    intro x ss hSelf hOrderly
    exact
      ⟨run_overlooks hKeeper hSelf hOrderly.follows,
        run_follows (step_warns hKeeper) ss x⟩
  refine ⟨?_, ?_, ?_⟩
  · exact run_paired hKeeper hSteps hPair hRun.follows
      hTwin.follows
  · exact hUntroubled w steps
      { hPair with settings := ⟨rfl, rfl, rfl, rfl⟩ } hRun
  · exact hUntroubled v twins
      { hPair with settings := ⟨rfl, rfl, rfl, rfl⟩ } hTwin

theorem step_leads
    {s : Step}
    (hKeeper : keeper.Known)
    (hIssues : s.Issues) :
    w.Leads (step keeper s w).2 := by
  cases s with
  | provision hostname =>
      simp only [step, issued_eq]
      exact (request_restores hKeeper _ w).leads
  | trusted hostname =>
      simp only [step, issued_eq, Strategy.runIn_trusted]
      exact Trusted.keeps_leads_issue _ hostname w
  | manual hostname =>
      simp only [step, issued_eq, Strategy.runIn_manual]
      exact Manual.keeps_leads_issue _ hostname w
  | _ => cases hIssues

/-
  Steps that ask for material are orderly if tools and files
  have plain names and the directory for workspaces was
  there from the start.
-/
theorem orderlyRun_of_plain
    {steps : List Step}
    (hKeeper : keeper.Known)
    (hSteps : ∀ s ∈ steps, s.Issues)
    (hBase : base.WellFormed)
    (hConfig : w.config.NamesNoFlag)
    (hPlain :
      ∀ b ∈ w.script, ∀ f ∈ b.files,
        Files.IsPlainName f.1)
    (hThere :
      ∀ m ∈ Files.wayTo w.cwd w.directory,
        base.at? m ≠ none) :
    OrderlyRun keeper base w steps := by
  induction steps generalizing w with
  | nil => exact ⟨trivial⟩
  | cons s ss ih =>
      have hLeads : w.Leads (step keeper s w).2 :=
        step_leads hKeeper (hSteps s List.mem_cons_self)
      have hDirectory :
          (step keeper s w).2.directory = w.directory := by
        simp only [World.directory, Workspace.directoryOf,
          hLeads.config, hLeads.tempDir]
      have hOrderly :
          Orderly base w s (step keeper s w) := by
        intro _
        refine ⟨World.keeping_of_plain hConfig hPlain, ?_⟩
        rintro m hWay ⟨l, hAbove, hFree, _⟩
        exact hThere m hWay
          (hBase.at?_eq_none_of_prefix hFree hAbove)
      have hRest :
          OrderlyRun keeper base (step keeper s w).2 ss := by
        apply ih
        · intro x hx
          exact hSteps x (List.mem_cons_of_mem s hx)
        · rw [hLeads.config]
          exact hConfig
        · intro b hb
          exact hPlain b (hLeads.script.mem hb)
        · rw [hDirectory, hLeads.cwd]
          exact hThere
      constructor
      rw [run_cons]
      exact ⟨hOrderly, hRest.follows⟩

/-
  Workspaces pile up in one run and not in the other: the
  first tool fails, and the others issue after it.
-/
theorem run_overlooks_piled_up_workspaces :
    let w : World :=
      { files := ⟨[(["tmp"], .directory 0o777)]⟩
        cwd := []
        tempDir := "/tmp"
        script := [{ ending := .missing }] }
    let v := { w with removalFaults := fun _ => some "busy" }
    let steps : List Step := [.trusted "a", .manual "a"]
    (run .fresh steps v).map
          (fun r => r.2.faultsMet.length) = [1, 2] ∧
      OrderlyRun .fresh w.files w steps ∧
      OrderlyRun .fresh w.files v steps ∧
      List.Forall₂ SameCourse (run .fresh steps w)
        (run .fresh steps v) ∧
      Untroubled .fresh w.files w steps ∧
      Untroubled .fresh w.files v steps := by
  intro w v steps
  have hFiles : w.files.WellFormed := by decide
  have hIssues : ∀ s ∈ steps, s.Issues := by
    simp [steps, Step.Issues]
  have hRun : OrderlyRun .fresh w.files w steps :=
    orderlyRun_of_plain trivial hIssues hFiles (by decide)
      (by decide) (by decide)
  have hTwin : OrderlyRun .fresh w.files v steps :=
    orderlyRun_of_plain trivial hIssues hFiles (by decide)
      (by decide) (by decide)
  have hSteps : List.Forall₂ Step.Twin steps steps :=
    .cons (.same _) (.cons (.same _) .nil)
  refine ⟨by decide +kernel, hRun, hTwin, ?_⟩
  exact run_overlooks_leftovers .fresh trivial steps steps
    hSteps w hFiles v.removalFaults hRun hTwin

end Session

end LocalCert
