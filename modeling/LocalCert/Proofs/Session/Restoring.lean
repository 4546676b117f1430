import LocalCert.Proofs.Session.Steps
import LocalCert.Proofs.Tool.Confinement
import LocalCert.Proofs.Workspace.Names

/-
  Nothing that an attempt leaves on disk outlives it.  After
  each step of a session the files are what they were before
  it, whatever the step gave, if the tools keep to their
  workspaces and no removal fails.  What lies in no new
  workspace is left alone in any case.

  Main declarations:
    * `World.Confined`
    * `World.AlwaysConfined`
    * `World.InNewWorkspace`
    * `World.Restores`
    * `Session.step_restores`
    * `Session.run_restores_files`
-/

------------------------------------------------------------
-- Tools That Keep To Their Workspaces
------------------------------------------------------------

namespace LocalCert

namespace World

/- The workspace that is tried as the n-th. -/
def workspaceAt
    (w : World)
    (start : String)
    (n : Nat) : Path :=
  Path.ofText
    (Workspace.nameAt
      (Workspace.directoryOf w w.config.workspaceDir) start n)

/- The commands of attempts, each with its workspace. -/
def commandsAt
    (w : World)
    (hostname : String)
    (n : Nat) : List (Tool.Command × Path) :=
  let trusted := w.workspaceAt Trusted.workspaceStart n
  let manual := w.workspaceAt Manual.workspaceStart n
  [(Trusted.command w.config trusted hostname, trusted),
    (Manual.keyCommand w.config manual, manual),
    (Manual.requestCommand w.config hostname manual, manual),
    (Manual.signCommand w.config hostname manual, manual)]

/-
  Whether every process to come, that of a behaviour in the
  script or the usual one, keeps to the workspace of the
  attempt that starts it.
-/
def Confined
    (w : World) : Prop :=
  ∀ b ∈ ({} : Behaviour) :: w.script,
    ∀ hostname n,
      ∀ c ∈ w.commandsAt hostname n,
        Tool.StaysIn w.files w.cwd c.2 c.1.argv b

variable {before after : World}

theorem Leads.commandsAt_eq
    (hLeads : before.Leads after) :
    after.commandsAt = before.commandsAt := by
  funext hostname n
  simp only [commandsAt, workspaceAt, Workspace.directoryOf,
    hLeads.config, hLeads.tempDir]

/- In given files, the processes still to come keep to it. -/
theorem Confined.withFiles_of_leads
    {t : Files.Tree}
    (hConfined : { before with files := t }.Confined)
    (hLeads : before.Leads after) :
    { after with files := t }.Confined := by
  intro b hb hostname n c hc
  have hCommands :
      { after with files := t }.commandsAt =
        { before with files := t }.commandsAt :=
    hLeads.commandsAt_eq
  rw [hCommands] at hc
  rw [hLeads.cwd]
  have hBefore := hLeads.behaviours_subset hb
  exact hConfined b hBefore hostname n c hc

theorem Confined.of_leads
    (hConfined : before.Confined)
    (hLeads : before.Leads after)
    (hFiles : after.files = before.files) :
    after.Confined := by
  have hAfter :=
    Confined.withFiles_of_leads hConfined hLeads
  rw [← hFiles] at hAfter
  exact hAfter

/- Each command writes some files of its workspace. -/
theorem outputs_commandsAt
    {w : World}
    {hostname : String}
    {n : Nat}
    {c : Tool.Command × Path}
    (hConfig : w.config.NamesNoFlag)
    (hc : c ∈ w.commandsAt hostname n) :
    c.2.IsNormal ∧
      ∃ names,
        names ⊆ Tool.workspaceFiles ∧
          Tool.outputs c.1.argv =
            names.map (fun name => (c.2.child name).text) := by
  have hNormal :
      ∀ start, (w.workspaceAt start n).IsNormal := by
    intro start
    exact Path.isNormal_ofText _
  simp only [commandsAt, List.mem_cons, List.not_mem_nil,
    or_false] at hc
  rcases hc with rfl | rfl | rfl | rfl
  · exact ⟨hNormal _, ["key.pem", "cert.pem"], by decide,
      Trusted.outputs_command hConfig (hNormal _) _⟩
  · exact ⟨hNormal _, ["key.pem"], by decide,
      Manual.outputs_keyCommand hConfig (hNormal _)⟩
  · exact ⟨hNormal _, ["cert.csr"], by decide,
      Manual.outputs_requestCommand hConfig (hNormal _) _⟩
  · exact ⟨hNormal _, ["cert.pem"], by decide,
      Manual.outputs_signCommand hConfig (hNormal _) _⟩

/- With plain names in the script, all that comes has them. -/
theorem plain_of_mem_script
    {w : World}
    {b : Behaviour}
    (hPlain :
      ∀ b ∈ w.script, ∀ f ∈ b.files,
        Files.IsPlainName f.1)
    (hb : b ∈ ({} : Behaviour) :: w.script) :
    ∀ f ∈ b.files, Files.IsPlainName f.1 := by
  rcases List.mem_cons.mp hb with rfl | hb
  · intro f hf
    cases hf
  · exact hPlain b hb

/-
  Tools and curves that are not named like flags, and files
  with plain names, keep every process in its workspace.
-/
theorem confined_of_plain
    {w : World}
    (hFiles : w.files.WellFormed)
    (hConfig : w.config.NamesNoFlag)
    (hPlain :
      ∀ b ∈ w.script, ∀ f ∈ b.files,
        Files.IsPlainName f.1) :
    w.Confined := by
  intro b hb hostname n c hc
  rcases outputs_commandsAt hConfig hc with
    ⟨hNormal, names, hNames, hOutputs⟩
  exact Tool.staysIn_of_plain names hFiles hNormal hNames
    hOutputs (plain_of_mem_script hPlain hb)

/-
  Whether all processes to come keep to their workspaces in
  whatever files there are by then: also where a workspace
  that could not be removed is still there.
-/
def AlwaysConfined
    (w : World) : Prop :=
  ∀ t : Files.Tree,
    t.WellFormed → { w with files := t }.Confined

theorem AlwaysConfined.confined
    {w : World}
    (hConfined : w.AlwaysConfined)
    (hFiles : w.files.WellFormed) :
    w.Confined :=
  hConfined w.files hFiles

theorem AlwaysConfined.of_leads
    (hConfined : before.AlwaysConfined)
    (hLeads : before.Leads after) :
    after.AlwaysConfined := by
  intro t hTree
  exact (hConfined t hTree).withFiles_of_leads hLeads

theorem alwaysConfined_of_plain
    {w : World}
    (hConfig : w.config.NamesNoFlag)
    (hPlain :
      ∀ b ∈ w.script, ∀ f ∈ b.files,
        Files.IsPlainName f.1) :
    w.AlwaysConfined := by
  intro t hTree
  exact confined_of_plain hTree hConfig hPlain

/-
  Whether a location lies in a workspace that an attempt may
  yet make, in a place that is free so far.
-/
def InNewWorkspace
    (w : World)
    (l : Files.Location) : Prop :=
  ∃ start ∈ Workspace.starts, ∃ n,
    let place :=
      Files.destination w.cwd (w.workspaceAt start n)
    w.files.at? place = none ∧ place <+: l

/- What is new afterwards was new, if all else is kept. -/
theorem InNewWorkspace.of_leads
    {l : Files.Location}
    (hNew : after.InNewWorkspace l)
    (hLeads : before.Leads after)
    (hOutside :
      ∀ m,
        ¬ before.InNewWorkspace m →
        after.files.at? m = before.files.at? m) :
    before.InNewWorkspace l := by
  have hSame : after.workspaceAt = before.workspaceAt := by
    funext start n
    simp only [workspaceAt, Workspace.directoryOf,
      hLeads.config, hLeads.tempDir]
  rcases hNew with ⟨start, hStart, n, hFree, hPrefix⟩
  rw [hSame, hLeads.cwd] at hFree hPrefix
  refine ⟨start, hStart, n, ?_, hPrefix⟩
  by_contra hTaken
  -- A place that was taken before is no new workspace, nor
  -- in one: they stand side by side.  So it is taken still.
  have hNotNew :
      ¬ before.InNewWorkspace
        (Files.destination before.cwd
          (before.workspaceAt start n)) := by
    rintro ⟨other, hOther, m, hOtherFree, hOtherPrefix⟩
    have hPlaces :
        Files.destination before.cwd
            (before.workspaceAt other m) =
          Files.destination before.cwd
            (before.workspaceAt start n) :=
      Workspace.destination_nameAt_eq hOther hStart
        hOtherPrefix
    rw [hPlaces] at hOtherFree
    exact hTaken hOtherFree
  rw [hOutside _ hNotNew] at hFree
  exact hTaken hFree

------------------------------------------------------------
-- Restored Files
------------------------------------------------------------

/-
  Whether one world comes of another with the files as they
  were, if tools keep to their workspaces and no removal
  fails.  A removal that fails has no effect outside of the
  new workspaces.
-/
structure Restores
    (before after : World) : Prop where
  leads : before.Leads after
  files :
    before.files.WellFormed →
    before.Confined →
    before.Cleared after →
    after.files = before.files
  outside :
    before.files.WellFormed →
    before.AlwaysConfined →
    ∀ l,
      ¬ before.InNewWorkspace l →
      after.files.at? l = before.files.at? l

/- What leaves the files alone restores them. -/
theorem Restores.of_files_eq
    (hLeads : before.Leads after)
    (hFiles : after.files = before.files) :
    before.Restores after := by
  refine ⟨hLeads, fun _ _ _ => hFiles, ?_⟩
  intro _ _ l _
  rw [hFiles]

theorem Restores.refl
    (w : World) :
    w.Restores w :=
  .of_files_eq (Leads.refl w) rfl

theorem Restores.trans
    {a b c : World}
    (hFirst : a.Restores b)
    (hNext : b.Restores c) :
    a.Restores c := by
  refine ⟨hFirst.leads.trans hNext.leads, ?_, ?_⟩
  · intro hFiles hConfined hCleared
    have hSplit :=
      hCleared.split hFirst.leads hNext.leads
    have hSame := hFirst.files hFiles hConfined hSplit.1
    rw [hNext.files (hFirst.leads.files hFiles)
      (hConfined.of_leads hFirst.leads hSame) hSplit.2,
      hSame]
  · intro hFiles hConfined l hNotNew
    have hOutside := hFirst.outside hFiles hConfined
    rw [hNext.outside (hFirst.leads.files hFiles)
      (hConfined.of_leads hFirst.leads) l
      (fun hNew =>
        hNotNew (hNew.of_leads hFirst.leads hOutside))]
    exact hOutside l hNotNew

instance : IsPreorder World Restores where
  refl := Restores.refl
  trans _ _ _ := Restores.trans

theorem restores_report
    (w : World)
    (e : Event) :
    w.Restores (w.report e) :=
  .of_files_eq (leads_report w e) (report_files w e)

------------------------------------------------------------
-- Processes In A Workspace
------------------------------------------------------------

/- Whether a workspace that was held is held still. -/
def HoldsOn
    (before : World)
    (l : Files.Location)
    (w v : World) : Prop :=
  before.Holds l w → before.Holds l v

instance
    (before : World)
    (l : Files.Location) :
    IsPreorder World (before.HoldsOn l) where
  refl _ := id
  trans _ _ _ hFirst hNext := hNext ∘ hFirst

theorem holdsOn_report
    {l : Files.Location}
    (w : World)
    (e : Event) :
    before.HoldsOn l w (w.report e) := by
  intro hHolds
  refine ⟨hHolds.leads.trans (leads_report w e), ?_, ?_⟩
  · rw [report_files]
    exact hHolds.files
  · rw [report_files]
    exact hHolds.cut

theorem nextBehaviour_mem
    (w : World) :
    w.nextBehaviour.1 ∈ ({} : Behaviour) :: w.script := by
  unfold nextBehaviour
  split <;> simp_all

end World

/- A process that keeps to a workspace holds it. -/
theorem Tool.keeps_holdsOn_run
    {before : World}
    {l : Files.Location}
    {ws : Path}
    {c : Command}
    (hPlace : before.files.HasPlace before.cwd ws.text l)
    (hStays :
      ∀ b ∈ ({} : Behaviour) :: before.script,
        StaysIn before.files before.cwd ws c.argv b) :
    Act.Keeps (before.HoldsOn l) (run c) := by
  refine keeps_run (fun w _ => World.holdsOn_report w _) ?_
  intro w hHolds
  have hLeads := keeps_leads_start c w
  have hScript :
      w.nextBehaviour.1 ∈
        ({} : Behaviour) :: before.script :=
    hHolds.leads.behaviours_subset
      (World.nextBehaviour_mem w)
  refine ⟨hHolds.leads.trans hLeads,
    hLeads.files hHolds.files, ?_⟩
  have hStay :=
    hStays w.nextBehaviour.1 hScript l w.files hPlace
      hHolds.files hHolds.cut
  rw [← hHolds.leads.cwd] at hStay
  have hStarted :
      ((start c).runIn w).2.files =
        leaveFiles c.argv w.nextBehaviour.1 w.cwd
          w.files := by
    rw [start_world]
    unfold World.nextBehaviour World.note
    split <;> simp_all
  rw [hStarted]
  exact hStay

------------------------------------------------------------
-- Attempts
------------------------------------------------------------

namespace World

/- A workspace whose processes hold it leaves no trace. -/
theorem restores_within
    {α : Type}
    {w : World}
    {start : String}
    {body : Path → Act α}
    (hStart : start ∈ Workspace.starts)
    (hLeads : ∀ path, Act.Keeps Leads (body path))
    (hBody :
      w.Confined →
      ∀ n l,
        let ws := w.workspaceAt start n
        w.files.HasPlace w.cwd ws.text l →
        Act.Keeps (w.HoldsOn l) (body ws)) :
    w.Restores
      ((Workspace.within start w.config.workspaceDir
        body).runIn w).2 := by
  refine ⟨Workspace.keeps_leads_within hLeads w, ?_, ?_⟩
  · intro hFiles hConfined hCleared
    refine Workspace.within_files hFiles ?_ hCleared
    intro n l v ws hPlace hHolds
    exact hBody hConfined n l hPlace v hHolds
  · intro hFiles hAlways m hNotNew
    have hConfined := hAlways.confined hFiles
    refine Workspace.within_outside hFiles ?_ ?_
    · intro n l v ws hPlace hHolds
      exact hBody hConfined n l hPlace v hHolds
    · intro n place hFree hPrefix
      exact hNotNew ⟨start, hStart, n, hFree, hPrefix⟩

end World

theorem Trusted.restores_issue
    (w : World)
    (hostname : String) :
    w.Restores ((issue w.config hostname).runIn w).2 := by
  refine Act.Keeps.bind_at ?_
    (Act.Keeps.telling (fun v => v.restores_report _))
  refine World.restores_within (by decide) ?_ ?_
  · intro path
    exact keeps_attempt (Tool.keeps_leads_run _)
  · intro hConfined n l ws hPlace
    refine keeps_attempt (Tool.keeps_holdsOn_run hPlace ?_)
    intro b hb
    exact hConfined b hb hostname n
      (command w.config ws hostname, ws) List.mem_cons_self

theorem Manual.restores_issue
    (w : World)
    (hostname : String) :
    w.Restores ((issue w.config hostname).runIn w).2 := by
  refine Act.Keeps.bind_at ?_
    (Act.Keeps.telling (fun v => v.restores_report _))
  refine World.restores_within (by decide) ?_ ?_
  · intro path
    exact keeps_attempt (Tool.keeps_leads_run _)
      (Tool.keeps_leads_run _) (Tool.keeps_leads_run _)
  · intro hConfined n l ws hPlace
    have hStays :
        ∀ c ∈ [keyCommand w.config ws,
            requestCommand w.config hostname ws,
            signCommand w.config hostname ws],
          Act.Keeps (w.HoldsOn l) (Tool.run c) := by
      intro c hc
      refine Tool.keeps_holdsOn_run hPlace ?_
      intro b hb
      refine hConfined b hb hostname n (c, ws) ?_
      exact List.mem_cons_of_mem _
        (List.mem_map_of_mem (f := fun c => (c, ws)) hc)
    exact keeps_attempt
      (hStays _ (by simp)) (hStays _ (by simp))
      (hStays _ (by simp))

------------------------------------------------------------
-- Strategies
------------------------------------------------------------

/- Restored files, from worlds with a given configuration. -/
def World.RestoresWith
    (c : Config)
    (before after : World) : Prop :=
  before.config = c → before.Restores after

instance
    (c : Config) :
    IsPreorder World (World.RestoresWith c) where
  refl w _ := World.Restores.refl w
  trans a b d hFirst hNext hConfig := by
    have hRestores := hFirst hConfig
    refine hRestores.trans (hNext ?_)
    rw [hRestores.leads.config, hConfig]

/-
  The strategies whose behaviour is known: the two that
  issue, with the configuration found in the world, and
  those with given answers.
-/
inductive Strategy.Known : Strategy → Prop where
  | trusted : Known (.trusted World.config)
  | manual : Known (.manual World.config)
  | scripted (position : Nat) (a : Answers) :
      Known (.scripted position a)

section

variable {c : Config}
variable {config : World → Config}

theorem Strategy.runIn_trusted
    (hostname : String)
    (w : World) :
    ((Strategy.trusted config).issue hostname).runIn w =
      (Trusted.issue (config w) hostname).runIn w := by
  rw [trusted, Act.runIn_bind, Act.runIn_look]

theorem Strategy.runIn_manual
    (hostname : String)
    (w : World) :
    ((Strategy.manual config).issue hostname).runIn w =
      (Manual.issue (config w) hostname).runIn w := by
  rw [manual, Act.runIn_bind, Act.runIn_look]

theorem Strategy.keeps_restores_trusted
    (hConfig : ∀ w, w.config = c → config w = c)
    (hostname : String) :
    Act.Keeps (World.RestoresWith c)
      ((Strategy.trusted config).issue hostname) := by
  intro w hWorld
  rw [runIn_trusted, hConfig w hWorld, ← hWorld]
  exact Trusted.restores_issue w hostname

theorem Strategy.keeps_restores_manual
    (hConfig : ∀ w, w.config = c → config w = c)
    (hostname : String) :
    Act.Keeps (World.RestoresWith c)
      ((Strategy.manual config).issue hostname) := by
  intro w hWorld
  rw [runIn_manual, hConfig w hWorld, ← hWorld]
  exact Manual.restores_issue w hostname

theorem Strategy.Known.keeps_restores
    {s : Strategy}
    (hKnown : s.Known)
    (hostname : String) :
    Act.Keeps (World.RestoresWith c) (s.issue hostname) := by
  cases hKnown with
  | trusted =>
      exact keeps_restores_trusted (fun _ => id) hostname
  | manual =>
      exact keeps_restores_manual (fun _ => id) hostname
  | scripted position a =>
      intro w _
      exact .of_files_eq (World.leads_note w _) rfl

end

------------------------------------------------------------
-- Sessions
------------------------------------------------------------

namespace Session

/- Whether all strategies of a session are known. -/
def Keeper.Known : Keeper → Prop
  | .kept p => ∀ s ∈ p.fallible ++ [p.last], s.Known
  | .fresh => True

/- The keeper of one provisioner with its two strategies. -/
def Keeper.standard : Keeper :=
  .kept (.standard World.config)

theorem known_standard :
    Keeper.standard.Known := by
  apply Provisioner.forall_standard
  · exact .trusted
  · exact .manual

variable {keeper : Keeper}

theorem request_restores
    (hKeeper : keeper.Known)
    (hostname : String)
    (w : World) :
    w.Restores ((request keeper hostname w).runIn w).2 := by
  have hReport :
      ∀ v e,
        World.RestoresWith w.config v (v.report e) := by
    intro v e _
    exact World.restores_report v e
  have hKeeps :
      Act.Keeps (World.RestoresWith w.config)
        (request keeper hostname w) := by
    cases keeper with
    | kept p =>
        refine Provisioner.keeps_provision hReport ?_
        intro s hs h
        exact (hKeeper s hs).keeps_restores h
    | fresh =>
        apply Provisioner.keeps_provision hReport
        apply Provisioner.forall_standard
        · exact Strategy.keeps_restores_trusted
            (fun _ _ => rfl)
        · exact Strategy.keeps_restores_manual
            (fun _ _ => rfl)
  exact hKeeps w rfl

/- Each step keeps files well-formed, and restores them. -/
theorem step_restores
    (hKeeper : keeper.Known)
    (s : Step)
    (w : World)
    (hFiles : w.files.WellFormed) :
    (step keeper s w).2.files.WellFormed ∧
      (w.Confined →
        w.Cleared (step keeper s w).2 →
        (step keeper s w).2.files = w.files) := by
  have hIssued :
      ∀ act : Act Material,
        w.Restores (act.runIn w).2 →
        (issued act w).2.files.WellFormed ∧
          (w.Confined →
            w.Cleared (issued act w).2 →
            (issued act w).2.files = w.files) := by
    intro act hRestores
    rw [issued_eq]
    exact ⟨hRestores.leads.files hFiles,
      hRestores.files hFiles⟩
  cases s with
  | provision hostname =>
      simp only [step]
      exact hIssued _ (request_restores hKeeper _ w)
  | trusted hostname =>
      simp only [step]
      refine hIssued _ ?_
      rw [Strategy.runIn_trusted]
      exact Trusted.restores_issue w hostname
  | manual hostname =>
      simp only [step]
      refine hIssued _ ?_
      rw [Strategy.runIn_manual]
      exact Manual.restores_issue w hostname
  | assign settings => exact ⟨hFiles, fun _ _ => rfl⟩
  | setLevel level =>
      have hSame : (step keeper (.setLevel level) w).2.files =
          w.files := by
        simp only [step, setLevel]
        cases w.logger.setLevel level <;> rfl
      rw [hSame]
      exact ⟨hFiles, fun _ _ => rfl⟩
  | addBehaviours behaviours =>
      exact ⟨hFiles, fun _ _ => rfl⟩
  | setRemovalFault words => exact ⟨hFiles, fun _ _ => rfl⟩

/-
  After every step of a session, the files are what they
  were before it, with every path, content and mode, if the
  processes keep to the workspaces of their attempts and no
  removal of a workspace fails in the step.
-/
theorem run_restores_files
    (keeper : Keeper)
    (hKeeper : keeper.Known)
    (steps : List Step)
    (w : World)
    (hFiles : w.files.WellFormed) :
    List.IsChain
      (fun before after : World =>
        before.Confined →
        before.Cleared after →
        after.files = before.files)
      (w :: (run keeper steps w).map Prod.snd) := by
  induction steps generalizing w with
  | nil => exact .singleton w
  | cons s ss ih =>
      have hStep := step_restores hKeeper s w hFiles
      rw [run_cons, List.map_cons, List.isChain_cons_cons]
      exact ⟨hStep.2, ih _ hStep.1⟩

/-
  The helper leaves directories of its own, removes the
  workspace, and does not end in time.  The tool that is
  tried after it has left half of a key when the user
  interrupts it.
-/
theorem interrupted_run_restores_files :
    let w : World :=
      { files := ⟨[(["tmp"], .directory 0o777)]⟩
        cwd := []
        tempDir := "/tmp"
        script :=
          [{ ending := .timedOut
             files := [("a/b", { body := .directory })]
             removesDirectory := true },
           { ending := .raised (.interrupt "") true
             files := [("key.pem", .ofText "half")] }] }
    let after := (step .fresh (.provision "a") w).2
    w.Confined ∧ w.Cleared after ∧ after.files = w.files := by
  intro w after
  have hFiles : w.files.WellFormed := by decide
  have hConfined : w.Confined :=
    World.confined_of_plain hFiles (by decide) (by decide)
  have hCleared : w.Cleared after := by decide +kernel
  have hChain :=
    run_restores_files .fresh trivial [.provision "a"] w
      hFiles
  rw [run_cons, List.map_cons,
    List.isChain_cons_cons] at hChain
  exact ⟨hConfined, hCleared, hChain.1 hConfined hCleared⟩

end Session

end LocalCert
