import LocalCert.Proofs.Manual.Abreast
import LocalCert.Proofs.Provisioner.Fallback

/-
  It does not matter how the trusted tool fails.  Whatever
  its process did in its workspace, falling back to the
  three steps gives the same, starts the same processes and
  leaves the same files, and the result is the one that the
  three steps give alone.

  Main declarations:
    * `World.helpedBy`
    * `World.HelperFails`
    * `Trusted.Aftermath`
    * `Trusted.Prepared.aftermath`
    * `Trusted.aftermath_issue`
    * `Manual.issue_alike`
    * `Provisioner.provision_overlooks_helper`
-/

------------------------------------------------------------
-- The Helper's Process
------------------------------------------------------------

namespace LocalCert

namespace World

/-
  The world in which the process of the trusted tool behaves
  in a given way.  It is started if there is a workspace for
  it, and before all others.
-/
def helpedBy
    (w : World)
    (b : Behaviour) : World :=
  match ((Workspace.create Trusted.workspaceStart
      w.config.workspaceDir).runIn w).1 with
  | .ok _ => { w with script := b :: w.script }
  | .error _ => w

theorem helpedBy_of_ok
    {w made : World}
    {ws : Path}
    (hRun :
      (Workspace.create Trusted.workspaceStart
          w.config.workspaceDir).runIn w = (.ok ws, made))
    (b : Behaviour) :
    w.helpedBy b = { w with script := b :: w.script } := by
  unfold helpedBy
  rw [hRun]

theorem helpedBy_of_error
    {w made : World}
    {f : Failure}
    (hRun :
      (Workspace.create Trusted.workspaceStart
          w.config.workspaceDir).runIn w = (.error f, made))
    (b : Behaviour) :
    w.helpedBy b = w := by
  unfold helpedBy
  rw [hRun]

theorem helpedBy_config
    (w : World)
    (b : Behaviour) :
    (w.helpedBy b).config = w.config := by
  unfold helpedBy
  split <;> rfl

/-
  Whether the process makes the attempt fail, not with an
  interrupt, and stays in the workspace of the attempt.
-/
structure HelperFails
    (w : World)
    (hostname : String)
    (b : Behaviour) : Prop where
  fails :
    ∃ f,
      ((Trusted.issue w.config hostname).runIn
          (w.helpedBy b)).1 = .error f ∧
        f.isRecoverable = true
  stays :
    ∀ ws made,
      (Workspace.create Trusted.workspaceStart
          w.config.workspaceDir).runIn w = (.ok ws, made) →
      Tool.StaysIn w.files w.cwd ws
        (Trusted.command w.config ws hostname).argv b

/- Whether the removal of its workspace does not fail. -/
def HelperClears
    (w : World)
    (hostname : String)
    (b : Behaviour) : Prop :=
  w.Cleared
    ((Trusted.issue w.config hostname).runIn
      (w.helpedBy b)).2

instance
    (w : World)
    (hostname : String)
    (b : Behaviour) :
    Decidable (w.HelperClears hostname b) := by
  unfold HelperClears
  infer_instance

end World

/- Names are tried whatever the processes will do. -/
theorem Workspace.tryNames_withScript
    (directory start : String)
    (tries : Nat)
    (w : World)
    (script : List Behaviour) :
    tryNames directory start tries
        { w with script := script } =
      ((tryNames directory start tries w).1,
        { (tryNames directory start tries w).2 with
          script := script }) := by
  induction tries generalizing w with
  | zero => rfl
  | succ tries ih =>
      simp only [tryNames]
      split
      · rfl
      · split
        · rfl
        · exact ih { w with namesTried := w.namesTried + 1 }
        · rfl

theorem Workspace.create_withScript
    (start : String)
    (parent : Option Path)
    (w : World)
    (script : List Behaviour) :
    (create start parent).runIn { w with script := script } =
      (((create start parent).runIn w).1,
        { ((create start parent).runIn w).2 with
          script := script }) := by
  have hDirectory :
      directoryOf { w with script := script } parent =
        directoryOf w parent := rfl
  rw [create, Act.runIn_bind, Act.runIn_bind, Act.runIn_of,
    Act.runIn_of, hDirectory, tryNames_withScript]
  cases tryNames (directoryOf w parent) start maxTries w with
  | mk result made =>
      cases result with
      | error f => rfl
      | ok path =>
          simp only [Act.runIn_bind, Act.runIn_report,
            Act.runIn_pure, World.report]
          split <;> rfl

/- The world after a command that names a tool. -/
theorem Tool.runIn_run_world
    {c : Command}
    {tool : String}
    {rest : List String}
    (hArgv : c.argv = tool :: rest)
    (w : World) :
    ((run c).runIn w).2 =
      { w.report (.runningTool tool c.argv) with
        script := w.script.tail
        calls := w.calls ++ [c.call]
        files :=
          leaveFiles c.argv (w.behaviourAt 0) w.cwd
            w.files } := by
  unfold run
  rw [hArgv]
  simp only [Act.runIn_bind, Act.runIn_report, runIn_start,
    Act.runIn_of, World.report_behaviourAt,
    World.report_script, World.report_calls,
    World.report_cwd, World.report_files]
  cases outcome c tool (w.behaviourAt 0).ending <;> rw [hArgv]

/- Reading does not change the world any further. -/
theorem Trusted.attempt_world
    (config : Config)
    (hostname : String)
    (ws : Path)
    (w : World) :
    ((attempt config hostname ws).runIn w).2 =
      ((Tool.run (command config ws hostname)).runIn w).2 := by
  rw [attempt, Act.runIn_bind]
  cases (Tool.run (command config ws hostname)).runIn w with
  | mk result after =>
      cases result with
      | error f => rfl
      | ok done => exact Workspace.readMaterial_world _ _ after

------------------------------------------------------------
-- What A Failed Attempt Leaves
------------------------------------------------------------

/-
  What an attempt with the trusted tool may leave of a
  world: some names are used up, calls made and removals
  tried, and all that differs in the files is its workspace.
-/
structure Trusted.Aftermath
    (w : World)
    (n : Nat)
    (called : List Call)
    (removals : Nat)
    (after : World) : Prop where
  leads : w.Leads after
  script : after.script = w.script
  namesTried : after.namesTried = n
  calls : after.calls = w.calls ++ called
  removalsTried :
    after.removalsTried = w.removalsTried + removals
  files :
    after.files = w.files ∨
      ∃ l,
        w.files.HasPlace w.cwd
            (w.workspaceAt workspaceStart n).text l ∧
          w.files.SameOutside l after.files

namespace Trusted

variable {w : World}
variable {hostname : String}
variable {b : Behaviour}

/- No attempt was made, but names were used up. -/
theorem aftermath_of_namesTried
    (w : World)
    (n : Nat) :
    Aftermath w n [] 0 { w with namesTried := n } where
  leads := { World.Leads.refl w with }
  script := rfl
  namesTried := rfl
  calls := (List.append_nil _).symm
  removalsTried := rfl
  files := .inl rfl

theorem Aftermath.report
    {n removals : Nat}
    {called : List Call}
    {after : World}
    (hAfter : Aftermath w n called removals after)
    (e : Event) :
    Aftermath w n called removals (after.report e) where
  leads := hAfter.leads.trans (World.leads_report after e)
  script := by
    rw [World.report_script, hAfter.script]
  namesTried := by
    rw [World.report_namesTried, hAfter.namesTried]
  calls := by
    rw [World.report_calls, hAfter.calls]
  removalsTried := by
    rw [World.report_removalsTried, hAfter.removalsTried]
  files := by
    rw [World.report_files]
    exact hAfter.files

/-
  Whether a workspace has been made for an attempt with the
  trusted tool, at a place that was free for it.
-/
structure Prepared
    (w : World)
    (n : Nat)
    (l : Files.Location)
    (ws : Path)
    (made : World) : Prop where
  workspace : ws = w.workspaceAt workspaceStart n
  place : w.files.HasPlace w.cwd ws.text l
  create :
    (Workspace.create workspaceStart
      w.config.workspaceDir).runIn w = (.ok ws, made)
  made :
    made =
      World.report
        { w with
          namesTried := n
          files :=
            w.files.put l
              (.directory Workspace.privateMode) }
        (.workspaceCreated ws.text)

theorem prepared_of_create
    {ws : Path}
    {made : World}
    (hRun :
      (Workspace.create workspaceStart
        w.config.workspaceDir).runIn w = (.ok ws, made)) :
    ∃ n l, Prepared w n l ws made := by
  rcases Workspace.create_eq_ok hRun with
    ⟨n, l, hWorkspace, hPlace, hMade⟩
  exact ⟨n, l, hWorkspace, hPlace, hRun, hMade⟩

namespace Prepared

variable {n : Nat}
variable {l : Files.Location}
variable {ws : Path}
variable {made : World}

/- It is made whatever the process of the tool will do. -/
theorem create_helped
    (hPrepared : Prepared w n l ws made)
    (b : Behaviour) :
    (Workspace.create workspaceStart
        w.config.workspaceDir).runIn
          { w with script := b :: w.script } =
      (.ok ws, { made with script := b :: w.script }) := by
  rw [Workspace.create_withScript, hPrepared.create]

/- What the process of the tool does to the world. -/
theorem attempt_helped
    (hPrepared : Prepared w n l ws made)
    (hostname : String)
    (b : Behaviour) :
    let c := command w.config ws hostname
    let after :=
      ((attempt w.config hostname ws).runIn
        { made with script := b :: w.script }).2
    after.script = w.script ∧
      after.namesTried = n ∧
      after.removalsTried = w.removalsTried ∧
      after.calls = w.calls ++ [c.call] ∧
      after.files =
        Tool.leaveFiles c.argv b w.cwd
          (w.files.put l
            (.directory Workspace.privateMode)) := by
  intro c after
  have hAfter :
      after =
        ((Tool.run c).runIn
          { made with script := b :: w.script }).2 :=
    attempt_world w.config hostname ws _
  rw [Tool.runIn_run_world rfl] at hAfter
  rw [hAfter, hPrepared.made]
  simp [World.behaviourAt]

/- The workspace is held until it is closed. -/
theorem holds_attempt
    (hPrepared : Prepared w n l ws made)
    (hFiles : w.files.WellFormed)
    (hStays :
      Tool.StaysIn w.files w.cwd ws
        (command w.config ws hostname).argv b) :
    World.Holds { w with script := b :: w.script } l
      ((attempt w.config hostname ws).runIn
        { made with script := b :: w.script }).2 := by
  have hPlace := hPrepared.place
  have hCreate :=
    Workspace.keeps_leads_create workspaceStart
      w.config.workspaceDir { w with script := b :: w.script }
  rw [hPrepared.create_helped] at hCreate
  have hAttempt :
      World.Leads { made with script := b :: w.script }
        ((attempt w.config hostname ws).runIn
          { made with script := b :: w.script }).2 :=
    keeps_attempt (Tool.keeps_leads_run _) _
  have hLeads := hCreate.trans hAttempt
  refine ⟨hLeads, hLeads.files hFiles, ?_⟩
  rw [(hPrepared.attempt_helped hostname b).2.2.2.2]
  apply hStays l _ hPlace
  · exact (hPlace.change _).wellFormed hFiles
  · rw [Files.Tree.cut_put List.prefix_rfl,
      hFiles.cut_eq_self hPlace.free]

/- The world in which the workspace has been closed. -/
theorem aftermath
    (hPrepared : Prepared w n l ws made)
    (hFiles : w.files.WellFormed)
    (hStays :
      Tool.StaysIn w.files w.cwd ws
        (command w.config ws hostname).argv b) :
    let after :=
      ((Workspace.within workspaceStart w.config.workspaceDir
        (attempt w.config hostname)).runIn
          { w with script := b :: w.script }).2
    Aftermath w n [(command w.config ws hostname).call] 1
        after ∧
      (w.Cleared after → after.files = w.files) := by
  intro after
  have hPlace := hPrepared.place
  have hHolds := hPrepared.holds_attempt hFiles hStays
  rcases hPrepared.attempt_helped hostname b with
    ⟨hScript, hTried, hRemovals, hCalls, _⟩
  generalize hWorked :
    ((attempt w.config hostname ws).runIn
      { made with script := b :: w.script }).2 = worked
    at hHolds hScript hTried hRemovals hCalls
  have hAfter : after = Workspace.close ws worked := by
    simp only [after, Workspace.within,
      Act.runIn_bind_ok (hPrepared.create_helped b),
      Act.runIn_ensuring, hWorked]
  have hClosed := Workspace.leads_close ws worked
  have hLeads := hHolds.leads.trans hClosed
  have hOutside : w.files.SameOutside l worked.files := by
    apply Files.Tree.sameOutside_of_cut_eq
      (Files.Tree.ne_nil_of_at?_eq_none hPlace.free)
    rw [hFiles.cut_eq_self hPlace.free]
    exact hHolds.cut.symm
  have hHosts :
      worked.files.Hosts worked.cwd ws.text l := by
    refine ⟨hHolds.files, w.files, hFiles, ?_, hOutside⟩
    rw [hHolds.leads.cwd]
    exact hPlace
  have hScriptAfter : after.script = w.script := by
    rw [hAfter, Workspace.close_script, hScript]
  rw [← hAfter] at hLeads
  refine ⟨?_, ?_⟩
  · exact
      { leads :=
          { hLeads with
            script := by
              simp only [hScriptAfter, List.suffix_rfl] }
        script := hScriptAfter
        namesTried := by
          rw [hAfter, Workspace.close_namesTried, hTried]
        calls := by
          rw [hAfter, Workspace.close_calls, hCalls]
        removalsTried := by
          rw [hAfter, Workspace.close_removalsTried,
            hRemovals]
        files := by
          refine .inr ⟨l, ?_, ?_⟩
          · rw [← hPrepared.workspace]
            exact hPlace
          · intro m hm
            rw [hAfter, hOutside m hm]
            exact (Workspace.close_sameOutside hHosts).2 m
              hm }
  · intro hCleared
    have hBefore :
        World.Cleared { w with script := b :: w.script }
          (Workspace.close ws worked) := by
      rw [← hAfter]
      exact hCleared
    rw [hAfter]
    exact @Workspace.close_files
      { w with script := b :: w.script } worked l ws hFiles
      hPlace hHolds (hBefore.split hHolds.leads hClosed).2

end Prepared

/- An attempt that failed has nothing more to tell. -/
theorem issue_world_of_error
    {config : Config}
    {f : Failure}
    (hFailed :
      ((issue config hostname).runIn w).1 = .error f) :
    ((issue config hostname).runIn w).2 =
      ((Workspace.within workspaceStart config.workspaceDir
        (attempt config hostname)).runIn w).2 := by
  rw [issue, Act.runIn_bind] at hFailed ⊢
  cases hRun :
      (Workspace.within workspaceStart config.workspaceDir
        (attempt config hostname)).runIn w with
  | mk result after =>
      rw [hRun] at hFailed
      cases result with
      | error g => rfl
      | ok m => cases hFailed

/-
  All behaviours that make the attempt fail leave the same
  but for the workspace, and not even that if it is removed.
-/
theorem aftermath_issue
    (hFiles : w.files.WellFormed)
    (hostname : String) :
    ∃ n called removals,
      ∀ b,
        w.HelperFails hostname b →
        let after :=
          ((issue w.config hostname).runIn (w.helpedBy b)).2
        Aftermath w n called removals after ∧
          (w.HelperClears hostname b →
            after.files = w.files) := by
  cases hRun :
      (Workspace.create workspaceStart
        w.config.workspaceDir).runIn w with
  | mk result made =>
      cases result with
      | error f =>
          refine ⟨made.namesTried, [], 0, ?_⟩
          intro b hFails after
          have hAfter :
              after =
                { w with namesTried := made.namesTried } := by
            simp only [after, World.helpedBy_of_error hRun,
              issue, Workspace.within,
              Act.runIn_bind_error
                (Act.runIn_bind_error hRun)]
            exact (Workspace.create_eq_error hRun).1
          rw [hAfter]
          exact ⟨aftermath_of_namesTried w made.namesTried,
            fun _ => rfl⟩
      | ok ws =>
          rcases prepared_of_create hRun with
            ⟨n, l, hPrepared⟩
          refine ⟨n,
            [(command w.config ws hostname).call], 1, ?_⟩
          intro b hFails after
          have hHelped := World.helpedBy_of_ok hRun b
          have hAfter :
              after =
                ((Workspace.within workspaceStart
                  w.config.workspaceDir
                  (attempt w.config hostname)).runIn
                    (w.helpedBy b)).2 := by
            rcases hFails.fails with ⟨f, hFailed, _⟩
            exact issue_world_of_error hFailed
          rw [World.HelperClears]
          rw [hHelped] at hAfter
          have hWithin :=
            hPrepared.aftermath hFiles
              (hFails.stays ws made hRun)
          rw [← hAfter] at hWithin
          exact hWithin

end Trusted

------------------------------------------------------------
-- The Three Steps After It
------------------------------------------------------------

namespace Manual

open World (Abreast)
open Trusted (Aftermath)

variable {w x y : World}
variable {hostname : String}
variable {n removals others : Nat}
variable {called otherCalled : List Call}

theorem abreast_of_aftermath
    {F : Files.Tree → Files.Tree → Prop}
    (hFirst : Aftermath w n called removals x)
    (hSecond : Aftermath w n otherCalled others y)
    (hFiles : F x.files y.files) :
    Abreast (fun _ => F) x y x y := by
  apply World.abreast_self
  · exact
      { cwd := hSecond.leads.cwd.trans hFirst.leads.cwd.symm
        tempDir :=
          hSecond.leads.tempDir.trans
            hFirst.leads.tempDir.symm
        config :=
          hSecond.leads.config.trans
            hFirst.leads.config.symm
        logger :=
          hSecond.leads.logger.trans
            hFirst.leads.logger.symm }
  · rw [hSecond.script, hFirst.script]
  · rw [hSecond.namesTried, hFirst.namesTried]
  · exact hFiles

/- What both runs of the three steps have in common. -/
structure SameCourse
    (w : World)
    (hostname : String)
    (x y : World) : Prop where
  result :
    ((issue w.config hostname).runIn x).1 =
      ((issue w.config hostname).runIn y).1
  calls :
    ∃ started,
      ((issue w.config hostname).runIn x).2.calls =
          x.calls ++ started ∧
        ((issue w.config hostname).runIn y).2.calls =
          y.calls ++ started

theorem sameCourse_of_copes
    {F G : Files.Tree → Files.Tree → Prop}
    (hFirst : Aftermath w n called removals x)
    (hSecond : Aftermath w n otherCalled others y)
    (hCopes : Copes F w hostname)
    (hFiles : F x.files y.files)
    (hStill : ∀ t u, F t u → G t u)
    (hClose :
      ∀ ws w v,
        Abreast (fun _ => F) x y w v →
        G (Workspace.close ws w).files
          (Workspace.close ws v).files) :
    SameCourse w hostname x y ∧
      G ((issue w.config hostname).runIn x).2.files
        ((issue w.config hostname).runIn y).2.files := by
  have hIssue :=
    abreast_issue
      (hCopes.of_same hFirst.leads hFirst.script) hStill
      hClose (abreast_of_aftermath hFirst hSecond hFiles)
  rw [hFirst.leads.config] at hIssue
  exact ⟨⟨hIssue.1, hIssue.2.calls⟩, hIssue.2.files⟩

/- Workspaces are closed alike after as many removals. -/
theorem close_files_eq
    (hFirst : Aftermath w n called removals x)
    (hSecond : Aftermath w n otherCalled removals y)
    (ws : Path)
    {v u : World}
    (hWorlds : Abreast (fun _ => Eq) x y v u) :
    (Workspace.close ws v).files =
      (Workspace.close ws u).files := by
  have hFaults : u.removalFaults = v.removalFaults := by
    rw [hWorlds.twinLeads.removalFaults,
      hWorlds.leads.removalFaults,
      hSecond.leads.removalFaults,
      hFirst.leads.removalFaults]
  have hTried : u.removalsTried = v.removalsTried := by
    rcases hWorlds.removalsTried with
      ⟨count, hLeft, hRight⟩
    rw [hLeft, hRight, hSecond.removalsTried,
      hFirst.removalsTried]
  have hNext :
      u.nextRemovalFault = v.nextRemovalFault := by
    rw [World.nextRemovalFault, World.nextRemovalFault,
      hFaults, hTried]
  rw [Workspace.close_files_eq, Workspace.close_files_eq,
    Workspace.closedFiles, Workspace.closedFiles, hNext,
    hWorlds.cwd, hWorlds.files]

/- After attempts with nothing left the files are the same. -/
theorem sameCourse_of_cleared
    (hostname : String)
    (hFirst : Aftermath w n called removals x)
    (hSecond : Aftermath w n otherCalled others y)
    (hLeft : x.files = w.files)
    (hRight : y.files = w.files) :
    SameCourse w hostname x y ∧
      (removals = others →
        ((issue w.config hostname).runIn x).2.files =
          ((issue w.config hostname).runIn y).2.files) := by
  refine sameCourse_of_copes
    (G := fun t u => removals = others → t = u) hFirst
    hSecond (copes_eq w hostname) ?_ ?_ ?_
  · rw [hLeft, hRight]
  · intro t u hFiles _
    exact hFiles
  · rintro ws v u hWorlds rfl
    exact close_files_eq hFirst hSecond ws hWorlds

/- What is left beside the other files is not seen. -/
theorem sameCourse_of_overlooks
    (hFiles : w.files.WellFormed)
    (hFirst : Aftermath w n called removals x)
    (hSecond : Aftermath w n otherCalled others y)
    (hOverlooks : w.Overlooks hostname)
    (hSome : x.files ≠ w.files ∨ y.files ≠ w.files) :
    SameCourse w hostname x y := by
  have hPlace :
      ∃ l,
        w.files.HasPlace w.cwd
            (w.workspaceAt Trusted.workspaceStart n).text
            l ∧
          w.files.SameOutside l x.files ∧
          w.files.SameOutside l y.files := by
    rcases hFirst.files with hLeft | ⟨l, hPlace, hLeft⟩
    · rcases hSecond.files with hRight | ⟨l, hPlace, hRight⟩
      · exact absurd hRight (hSome.resolve_left
          (not_not_intro hLeft))
      · rw [hLeft]
        exact ⟨l, hPlace, fun _ _ => rfl, hRight⟩
    · rcases hSecond.files with hRight | ⟨k, hTwin, hRight⟩
      · rw [hRight]
        exact ⟨l, hPlace, hLeft, fun _ _ => rfl⟩
      · have hSame : k = l := by
          rw [Files.Tree.locate_eq_ok hPlace.located,
            Files.Tree.locate_eq_ok hTwin.located]
        rw [hSame] at hRight
        exact ⟨l, hPlace, hLeft, hRight⟩
  rcases hPlace with ⟨l, hPlace, hLeft, hRight⟩
  have hBeside : Files.Beside l x.files y.files :=
    { left := hFirst.leads.files hFiles
      right := hSecond.leads.files hFiles
      same := by
        intro m hm
        rw [← hLeft m hm, hRight m hm] }
  exact (sameCourse_of_copes (G := fun _ _ => True) hFirst
    hSecond (copes_beside hFiles hPlace hOverlooks) hBeside
    (fun _ _ _ => trivial) (fun _ _ _ _ => trivial)).1

/- The three steps do the same after all such attempts. -/
theorem issue_alike
    (hFiles : w.files.WellFormed)
    (hFirst : Aftermath w n called removals x)
    (hSecond : Aftermath w n otherCalled others y)
    (hLater :
      (x.files = w.files ∧ y.files = w.files) ∨
        w.Overlooks hostname) :
    SameCourse w hostname x y := by
  by_cases hNothing : x.files = w.files ∧ y.files = w.files
  · exact (sameCourse_of_cleared hostname hFirst hSecond
      hNothing.1 hNothing.2).1
  · exact sameCourse_of_overlooks hFiles hFirst hSecond
      (hLater.resolve_left hNothing)
      (not_and_or.mp hNothing)

end Manual

------------------------------------------------------------
-- Falling Back
------------------------------------------------------------

namespace Provisioner

variable {w : World}
variable {hostname : String}
variable {config : World → Config}

/- After the helper failed the three steps are taken. -/
theorem provision_of_helperFails
    {b : Behaviour}
    (hAccepted : Hostname.validate hostname = .ok hostname)
    (hConfig :
      ∀ v : World, v.config = w.config → config v = w.config)
    (hFails : w.HelperFails hostname b) :
    ∃ e,
      ((standard config).provision hostname).runIn
          (w.helpedBy b) =
        (Manual.issue w.config hostname).runIn
          (World.report
            ((Trusted.issue w.config hostname).runIn
              (w.helpedBy b)).2 e) := by
  rcases hFails.fails with ⟨f, hFailed, hRecoverable⟩
  have hHelped := hConfig _ (w.helpedBy_config b)
  have hLeads :=
    Trusted.keeps_leads_issue w.config hostname
      (w.helpedBy b)
  refine ⟨.fellBack trustedName hostname f, ?_⟩
  cases hRun :
      (Trusted.issue w.config hostname).runIn
        (w.helpedBy b) with
  | mk result after =>
      rw [hRun] at hFailed hLeads
      simp only at hFailed hLeads
      subst hFailed
      have hName :
          (Strategy.trusted config).name = trustedName := rfl
      have hLast :
          config (after.report
            (.fellBack trustedName hostname f)) =
              w.config := by
        apply hConfig
        rw [(World.leads_report after _).config,
          hLeads.config, w.helpedBy_config b]
      simp only [provision, hAccepted, standard, tryEach,
        Act.runIn_orElseWith, Strategy.runIn_trusted,
        hHelped, hRun, hRecoverable, if_true,
        Act.runIn_bind, Act.runIn_report, hName,
        Strategy.runIn_manual, hLast]

/-
  Two behaviours of the trusted tool's process that make its
  strategy fail: provisioning gives the same result and
  starts the same processes after both, and leaves the same
  files if the workspaces of the failed attempts could be
  removed.  The result is that of the three steps alone, for
  a workspace of some number.  If a workspace is still there
  the processes after it must not look into it.
-/
theorem provision_overlooks_helper
    (config : World → Config)
    {first second : Behaviour}
    (hFiles : w.files.WellFormed)
    (hAccepted : Hostname.validate hostname = .ok hostname)
    (hConfig :
      ∀ v : World, v.config = w.config → config v = w.config)
    (hFirst : w.HelperFails hostname first)
    (hSecond : w.HelperFails hostname second)
    (hLater :
      (w.HelperClears hostname first ∧
          w.HelperClears hostname second) ∨
        w.Overlooks hostname) :
    let act := (standard config).provision hostname
    let left := act.runIn (w.helpedBy first)
    let right := act.runIn (w.helpedBy second)
    left.1 = right.1 ∧
      left.2.calls = right.2.calls ∧
      (w.HelperClears hostname first →
        w.HelperClears hostname second →
        left.2.files = right.2.files) ∧
      ∃ n called started,
        let alone :=
          ((Strategy.manual config).issue hostname).runIn
            { w with namesTried := n }
        left.1 = alone.1 ∧
          left.2.calls = w.calls ++ called ++ started ∧
          alone.2.calls = w.calls ++ started := by
  intro act left right
  rcases Trusted.aftermath_issue hFiles hostname with
    ⟨n, called, removals, hEach⟩
  rcases provision_of_helperFails hAccepted hConfig hFirst
    with ⟨e, hLeft⟩
  rcases provision_of_helperFails hAccepted hConfig hSecond
    with ⟨d, hRight⟩
  rcases hEach first hFirst with ⟨hAfter, hCleared⟩
  rcases hEach second hSecond with ⟨hTwin, hTwinCleared⟩
  have hAlone :=
    Trusted.aftermath_of_namesTried w n
  have hSame :
      Manual.SameCourse w hostname
        (World.report
          ((Trusted.issue w.config hostname).runIn
            (w.helpedBy first)).2 e)
        (World.report
          ((Trusted.issue w.config hostname).runIn
            (w.helpedBy second)).2 d) := by
    refine Manual.issue_alike hFiles (hAfter.report e)
      (hTwin.report d) ?_
    refine hLater.imp_left ?_
    rintro ⟨hClears, hTwinClears⟩
    rw [World.report_files, World.report_files]
    exact ⟨hCleared hClears, hTwinCleared hTwinClears⟩
  have hSameAlone :
      Manual.SameCourse w hostname
        (World.report
          ((Trusted.issue w.config hostname).runIn
            (w.helpedBy first)).2 e)
        { w with namesTried := n } := by
    refine Manual.issue_alike hFiles (hAfter.report e)
      hAlone ?_
    refine hLater.imp_left ?_
    rintro ⟨hClears, _⟩
    rw [World.report_files]
    exact ⟨hCleared hClears, rfl⟩
  have hManual :
      ((Strategy.manual config).issue hostname).runIn
          { w with namesTried := n } =
        (Manual.issue w.config hostname).runIn
          { w with namesTried := n } := by
    rw [Strategy.runIn_manual,
      hConfig { w with namesTried := n } rfl]
  simp only [left, right, act, hLeft, hRight]
  refine ⟨hSame.result, ?_, ?_, n, called, ?_⟩
  · rcases hSame.calls with ⟨started, hCalls, hTwinCalls⟩
    rw [hCalls, hTwinCalls, (hAfter.report e).calls,
      (hTwin.report d).calls]
  · intro hClears hTwinClears
    have hBoth :=
      Manual.sameCourse_of_cleared hostname
        (hAfter.report e) (hTwin.report d)
        (by rw [World.report_files, hCleared hClears])
        (by rw [World.report_files, hTwinCleared hTwinClears])
    exact hBoth.2 rfl
  · rcases hSameAlone.calls with
      ⟨started, hCalls, hAloneCalls⟩
    refine ⟨started, ?_⟩
    rw [hManual, hCalls, (hAfter.report e).calls]
    exact ⟨hSameAlone.result, rfl, hAloneCalls⟩

/- Files with plain names stay in the helper's workspace. -/
theorem helper_staysIn
    {b : Behaviour}
    {ws : Path}
    {made : World}
    (hFiles : w.files.WellFormed)
    (hNames : w.config.NamesNoFlag)
    (hPlain : ∀ f ∈ b.files, Files.IsPlainName f.1)
    (hRun :
      (Workspace.create Trusted.workspaceStart
          w.config.workspaceDir).runIn w = (.ok ws, made)) :
    Tool.StaysIn w.files w.cwd ws
      (Trusted.command w.config ws hostname).argv b := by
  rcases Workspace.create_eq_ok hRun with
    ⟨_, _, hWorkspace, _, _⟩
  have hNormal : ws.IsNormal := by
    rw [hWorkspace]
    exact Path.isNormal_ofText _
  exact Tool.staysIn_of_plain ["key.pem", "cert.pem"] hFiles
    hNormal (by decide)
    (Trusted.outputs_command hNames hNormal hostname) hPlain

theorem helperFails_of_plain
    {b : Behaviour}
    (hFiles : w.files.WellFormed)
    (hNames : w.config.NamesNoFlag)
    (hPlain : ∀ f ∈ b.files, Files.IsPlainName f.1)
    (hFails :
      (match ((Trusted.issue w.config hostname).runIn
          (w.helpedBy b)).1 with
        | .ok _ => false
        | .error f => f.isRecoverable) = true) :
    w.HelperFails hostname b := by
  refine ⟨?_, fun ws made hRun =>
    helper_staysIn hFiles hNames hPlain hRun⟩
  split at hFails
  · cases hFails
  · next f hFailed => exact ⟨f, hFailed, hFails⟩

/-
  The tool is not there, or it ends well but removes the
  workspace with all that it wrote.
-/
theorem provision_overlooks_missing_helper :
    let w : World :=
      { files := ⟨[(["tmp"], .directory 0o777)]⟩
        cwd := []
        tempDir := "/tmp" }
    let first : Behaviour := { ending := .missing }
    let second : Behaviour := { removesDirectory := true }
    w.HelperFails "a" first ∧
      w.HelperFails "a" second ∧
      let act := (standard World.config).provision "a"
      let left := act.runIn (w.helpedBy first)
      let right := act.runIn (w.helpedBy second)
      left.1 = right.1 ∧
        left.2.calls = right.2.calls ∧
        left.2.files = right.2.files := by
  intro w first second
  have hFiles : w.files.WellFormed := by decide
  have hNames : w.config.NamesNoFlag := by decide
  have hFirst : w.HelperFails "a" first :=
    helperFails_of_plain hFiles hNames (by decide)
      (by decide +kernel)
  have hSecond : w.HelperFails "a" second :=
    helperFails_of_plain hFiles hNames (by decide)
      (by decide +kernel)
  have hClears : w.HelperClears "a" first := by
    decide +kernel
  have hTwinClears : w.HelperClears "a" second := by
    decide +kernel
  have hBoth :=
    provision_overlooks_helper World.config hFiles
      (by decide) (fun _ => id) hFirst hSecond
      (.inr (Manual.overlooks_of_plain hFiles hNames
        (by decide) "a"))
  exact ⟨hFirst, hSecond, hBoth.1, hBoth.2.1,
    hBoth.2.2.1 hClears hTwinClears⟩

end Provisioner

end LocalCert
