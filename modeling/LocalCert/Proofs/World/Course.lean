import LocalCert.Proofs.Files.Operations
import LocalCert.Proofs.World.Actions
import LocalCert.Provisioner

/-
  The course of a world: whatever an attempt to issue
  material does, the world's settings stay, its records only
  grow, behaviours are used up from the front, and its files
  stay well-formed.

  Main declarations:
    * `World.Leads`
    * `Workspace.close_eq`
    * `Workspace.keeps_leads_within`
    * `Tool.keeps_leads_run`
    * `Trusted.keeps_leads_issue`
    * `Manual.keeps_leads_issue`
-/

------------------------------------------------------------
-- The Relation
------------------------------------------------------------

namespace LocalCert

namespace World

/- Whether one world can come of another in an attempt. -/
structure Leads
    (before after : World) : Prop where
  cwd : after.cwd = before.cwd
  tempDir : after.tempDir = before.tempDir
  config : after.config = before.config
  logger : after.logger = before.logger
  removalFaults : after.removalFaults = before.removalFaults
  script : after.script <:+ before.script
  journal : before.journal <+: after.journal
  calls : before.calls <+: after.calls
  faultsMet : before.faultsMet <+: after.faultsMet
  files : before.files.WellFormed → after.files.WellFormed

namespace Leads

theorem refl
    (w : World) :
    w.Leads w where
  cwd := rfl
  tempDir := rfl
  config := rfl
  logger := rfl
  removalFaults := rfl
  script := List.suffix_rfl
  journal := List.prefix_rfl
  calls := List.prefix_rfl
  faultsMet := List.prefix_rfl
  files := id

theorem trans
    {a b c : World}
    (hFirst : a.Leads b)
    (hNext : b.Leads c) :
    a.Leads c where
  cwd := hNext.cwd.trans hFirst.cwd
  tempDir := hNext.tempDir.trans hFirst.tempDir
  config := hNext.config.trans hFirst.config
  logger := hNext.logger.trans hFirst.logger
  removalFaults :=
    hNext.removalFaults.trans hFirst.removalFaults
  script := hNext.script.trans hFirst.script
  journal := hFirst.journal.trans hNext.journal
  calls := hFirst.calls.trans hNext.calls
  faultsMet := hFirst.faultsMet.trans hNext.faultsMet
  files := fun hTree => hNext.files (hFirst.files hTree)

instance : IsPreorder World Leads where
  refl := refl
  trans _ _ _ := trans

/- What processes may yet do, they might have done before. -/
theorem behaviours_subset
    {before after : World}
    (hLeads : before.Leads after) :
    ({} : Behaviour) :: after.script ⊆
      ({} : Behaviour) :: before.script :=
  List.cons_subset_cons _ hLeads.script.subset

end Leads

------------------------------------------------------------
-- Single Changes
------------------------------------------------------------

theorem leads_report
    (w : World)
    (e : Event) :
    w.Leads (w.report e) := by
  unfold report
  split
  · exact {
      Leads.refl w with
      journal := List.prefix_append _ _ }
  · exact Leads.refl w

theorem leads_note
    (w : World)
    (c : Call) :
    w.Leads (w.note c) := by
  exact {
    Leads.refl w with
    calls := List.prefix_append _ _ }

theorem leads_nextBehaviour
    (w : World) :
    w.Leads w.nextBehaviour.2 := by
  unfold nextBehaviour
  split
  · exact Leads.refl w
  · next b bs hScript =>
      exact {
        Leads.refl w with
        script := by
          rw [hScript]
          exact List.suffix_cons b bs }

/- Other files, if they are as well-formed as before. -/
theorem leads_files
    {w : World}
    {files : Files.Tree}
    (hFiles : w.files.WellFormed → files.WellFormed) :
    w.Leads { w with files := files } := by
  exact { Leads.refl w with files := hFiles }

end World

------------------------------------------------------------
-- Workspaces
------------------------------------------------------------

namespace Workspace

theorem leads_tryNames
    (directory start : String)
    (tries : Nat)
    (w : World) :
    w.Leads (tryNames directory start tries w).2 := by
  induction tries generalizing w with
  | zero => exact .refl w
  | succ tries ih =>
      have hCount :
          w.Leads
            { w with namesTried := w.namesTried + 1 } := by
        exact { World.Leads.refl w with }
      simp only [tryNames]
      split
      · exact hCount
      · split
        · next files hMake =>
            refine hCount.trans (World.leads_files ?_)
            intro hTree
            have hEvolves :
                Files.Tree.Evolves (fun _ => True)
                  w.files files :=
              Files.Tree.makeDirectory_evolves trivial hMake
            exact hEvolves.wellFormed hTree
        · exact hCount.trans (ih _)
        · exact hCount

/- The fault that is met when a workspace is closed. -/
def closingFault
    (ws : Path)
    (w : World) : Option Files.Fault :=
  match w.nextRemovalFault with
  | some words => some (.described words)
  | none => (w.files.removeAll w.cwd ws.text).1

/- A fault that is set for a removal is the one it meets. -/
theorem closingFault_of_set
    {w : World}
    {words : String}
    {ws : Path}
    (hSet : w.nextRemovalFault = some words) :
    closingFault ws w = some (.described words) := by
  rw [closingFault, hSet]

/- The files when a workspace has been closed. -/
def closedFiles
    (ws : Path)
    (w : World) : Files.Tree :=
  match w.nextRemovalFault with
  | some _ => w.files
  | none => (w.files.removeAll w.cwd ws.text).2

/- All that closing a workspace changes in a world. -/
theorem close_eq
    (ws : Path)
    (w : World) :
    close ws w =
      { w with
        removalsTried := w.removalsTried + 1
        files := closedFiles ws w
        faultsMet :=
          w.faultsMet ++ (closingFault ws w).toList
        journal :=
          w.journal ++
            if w.logger.isEnabled Level.warning then
              ((closingFault ws w).map
                (.workspaceNotRemoved ws.text)).toList
            else
              [] } := by
  have hNote :
      ∀ f v,
        noteFault ws f v =
          { v with
            faultsMet := v.faultsMet ++ [f]
            journal :=
              v.journal ++
                if v.logger.isEnabled Level.warning then
                  [.workspaceNotRemoved ws.text f]
                else
                  [] } := by
    intro f v
    unfold noteFault World.report
    by_cases hEnabled :
        v.logger.isEnabled Level.warning = true
    · rw [if_pos hEnabled]
      exact if_pos hEnabled
    · rw [if_neg hEnabled, List.append_nil]
      exact if_neg hEnabled
  simp only [close, closingFault, closedFiles]
  cases w.nextRemovalFault with
  | some words => simp [hNote]
  | none =>
      rcases w.files.removeAll w.cwd ws.text with ⟨f, files⟩
      cases f with
      | none => simp
      | some f => simp [hNote]

@[simp] theorem close_files_eq
    (ws : Path)
    (w : World) :
    (close ws w).files = closedFiles ws w := by
  rw [close_eq]

@[simp] theorem close_script
    (ws : Path)
    (w : World) :
    (close ws w).script = w.script := by
  rw [close_eq]

@[simp] theorem close_namesTried
    (ws : Path)
    (w : World) :
    (close ws w).namesTried = w.namesTried := by
  rw [close_eq]

@[simp] theorem close_removalsTried
    (ws : Path)
    (w : World) :
    (close ws w).removalsTried = w.removalsTried + 1 := by
  rw [close_eq]

@[simp] theorem close_calls
    (ws : Path)
    (w : World) :
    (close ws w).calls = w.calls := by
  rw [close_eq]

@[simp] theorem close_faultsMet
    (ws : Path)
    (w : World) :
    (close ws w).faultsMet =
      w.faultsMet ++ (closingFault ws w).toList := by
  rw [close_eq]

theorem leads_close
    (ws : Path)
    (w : World) :
    w.Leads (close ws w) := by
  have hFiles :
      w.files.WellFormed →
        (closedFiles ws w).WellFormed := by
    intro hTree
    unfold closedFiles
    split
    · exact hTree
    · exact hTree.removeAll
  rw [close_eq]
  exact
    { World.Leads.refl w with
      journal := List.prefix_append _ _
      faultsMet := List.prefix_append _ _
      files := hFiles }

theorem keeps_leads_create
    (start : String)
    (parent : Option Path) :
    Act.Keeps World.Leads (create start parent) := by
  refine Act.Keeps.bind ?_ ?_
  · exact Act.Keeps.of (fun w => leads_tryNames _ _ _ w)
  · intro path
    refine Act.Keeps.bind ?_ ?_
    · exact Act.Keeps.report (fun w => World.leads_report w _)
    · intro _
      exact Act.Keeps.pure path

theorem keeps_leads_within
    {α : Type}
    {start : String}
    {parent : Option Path}
    {body : Path → Act α}
    (hBody : ∀ path, Act.Keeps World.Leads (body path)) :
    Act.Keeps World.Leads (within start parent body) := by
  refine Act.Keeps.bind (keeps_leads_create _ _) ?_
  intro path
  exact Act.Keeps.ensuring (hBody path) (leads_close path)

/- Reading changes nothing. -/
theorem readMaterial_world
    (keyPath certPath : String)
    (w : World) :
    ((readMaterial keyPath certPath).runIn w).2 = w := by
  simp only [readMaterial, Act.runIn_of]
  split
  · rfl
  · split <;> rfl

theorem keeps_readMaterial
    {R : World → World → Prop}
    [IsPreorder World R]
    (keyPath certPath : String) :
    Act.Keeps R (readMaterial keyPath certPath) := by
  intro w
  rw [readMaterial_world]
  exact refl_of R w

end Workspace

------------------------------------------------------------
-- Tools
------------------------------------------------------------

namespace Tool

/- Two trees in which a process does the same things. -/
theorem leaveFiles_relates
    {R : Files.Tree → Files.Tree → Prop}
    {argv : List String}
    {b : Behaviour}
    {cwd : Files.Location}
    {t u : Files.Tree}
    (hPlace :
      ∀ output rest,
        outputs argv = output :: rest →
        ∀ c ∈ besides output b.files ++
            usualContents argv b,
          ∀ v v', R v v' →
            R (v.place cwd c.1 c.2) (v'.place cwd c.1 c.2))
    (hRemove :
      ∀ output rest,
        outputs argv = output :: rest →
        ∀ v v', R v v' →
          R (v.removeAll cwd
              (Path.ofText output).parent.text).2
            (v'.removeAll cwd
              (Path.ofText output).parent.text).2)
    (hTrees : R t u) :
    R (leaveFiles argv b cwd t) (leaveFiles argv b cwd u) := by
  unfold leaveFiles
  split
  · exact hTrees
  · next output rest hOutputs =>
      have hContents := hPlace output rest hOutputs
      simp only [List.forall_mem_append] at hContents
      have hPlaced :=
        Files.Tree.placeAll_relates hContents.1 hTrees
      have hUsual :=
        Files.Tree.placeAll_relates hContents.2 hPlaced
      split
      · exact hTrees
      · cases succeeded b.ending with
        | true =>
            cases b.removesDirectory with
            | true => exact hRemove _ _ hOutputs _ _ hUsual
            | false => exact hUsual
        | false =>
            cases b.removesDirectory with
            | true => exact hRemove _ _ hOutputs _ _ hPlaced
            | false => exact hPlaced

/-
  What placing its contents and removing its directory keep,
  a process keeps.
-/
theorem leaveFiles_keeps
    {Q : Files.Tree → Prop}
    {argv : List String}
    {b : Behaviour}
    {cwd : Files.Location}
    {t : Files.Tree}
    (hPlace :
      ∀ output rest,
        outputs argv = output :: rest →
        ∀ v,
          ∀ c ∈ besides output b.files ++
            usualContents argv b,
          Q v → Q (v.place cwd c.1 c.2))
    (hRemove :
      ∀ output rest,
        outputs argv = output :: rest →
        ∀ v, Q v →
          Q (v.removeAll cwd
            (Path.ofText output).parent.text).2)
    (hTree : Q t) :
    Q (leaveFiles argv b cwd t) := by
  refine leaveFiles_relates (R := fun v _ => Q v) (u := t)
    ?_ ?_ hTree
  · intro output rest hOutputs c hc v _ hv
    exact hPlace output rest hOutputs v c hc hv
  · intro output rest hOutputs v _ hv
    exact hRemove output rest hOutputs v hv

theorem wellFormed_leaveFiles
    {t : Files.Tree}
    (argv : List String)
    (b : Behaviour)
    (cwd : Files.Location)
    (hTree : t.WellFormed) :
    (leaveFiles argv b cwd t).WellFormed := by
  refine leaveFiles_keeps ?_ ?_ hTree
  · intro _ _ _ v c _ hv
    exact hv.place c.2
  · intro _ _ _ v hv
    exact hv.removeAll

/- The world after a process that was started. -/
theorem start_world
    (c : Command)
    (w : World) :
    ((start c).runIn w).2 =
      let noted :=
        w.note (.process c.argv c.input c.timeout c.cwd)
      { noted.nextBehaviour.2 with
        files :=
          leaveFiles c.argv noted.nextBehaviour.1
            noted.nextBehaviour.2.cwd
            noted.nextBehaviour.2.files } := rfl

theorem keeps_leads_start
    (c : Command) :
    Act.Keeps World.Leads (start c) := by
  intro w
  have hNoted :=
    World.leads_note w
      (.process c.argv c.input c.timeout c.cwd)
  have hNext := hNoted.trans (World.leads_nextBehaviour _)
  exact hNext.trans
    (World.leads_files (wellFormed_leaveFiles c.argv _ _))

/- What reporting and starting keep, running keeps. -/
theorem keeps_run
    {R : World → World → Prop}
    [IsPreorder World R]
    {c : Command}
    (hReport :
      ∀ w tool, R w (World.report w (.runningTool tool c.argv)))
    (hStart : Act.Keeps R (start c)) :
    Act.Keeps R (run c) := by
  unfold run
  split
  · exact Act.Keeps.fail _
  · next tool _ _ =>
      refine Act.Keeps.bind (Act.Keeps.report ?_) ?_
      · intro w
        exact hReport w tool
      · intro _
        refine Act.Keeps.bind hStart ?_
        intro ending
        exact Act.Keeps.of (fun w => refl_of R w)

theorem keeps_leads_run
    (c : Command) :
    Act.Keeps World.Leads (run c) :=
  keeps_run (fun w _ => World.leads_report w _)
    (keeps_leads_start c)

end Tool

------------------------------------------------------------
-- Attempts
------------------------------------------------------------

namespace Trusted

/- What running its command keeps, an attempt keeps. -/
theorem keeps_attempt
    {R : World → World → Prop}
    [IsPreorder World R]
    {config : Config}
    {hostname : String}
    {ws : Path}
    (hRun :
      Act.Keeps R (Tool.run (command config ws hostname))) :
    Act.Keeps R (attempt config hostname ws) := by
  refine Act.Keeps.bind hRun ?_
  intro _
  exact Workspace.keeps_readMaterial _ _

/- What relates its command and reading relates attempts. -/
theorem relates_attempt
    {R : World → World → Prop}
    {Q : Material → Material → Prop}
    {config : Config}
    {hostname : String}
    {ws : Path}
    (hRun :
      Act.Relates R Eq
        (Tool.run (command config ws hostname))
        (Tool.run (command config ws hostname)))
    (hRead :
      Act.Relates R Q
        (Workspace.readMaterial (ws.child "key.pem").text
          (ws.child "cert.pem").text)
        (Workspace.readMaterial (ws.child "key.pem").text
          (ws.child "cert.pem").text)) :
    Act.Relates R Q (attempt config hostname ws)
      (attempt config hostname ws) :=
  Act.Relates.bind hRun (fun _ _ _ => hRead)

theorem keeps_leads_issue
    (config : Config)
    (hostname : String) :
    Act.Keeps World.Leads (issue config hostname) := by
  refine Act.Keeps.bind ?_ ?_
  · refine Workspace.keeps_leads_within ?_
    intro ws
    exact keeps_attempt (Tool.keeps_leads_run _)
  · intro m
    apply Act.Keeps.telling
    intro w
    exact World.leads_report w _

end Trusted

namespace Manual

/- What running its three commands keeps, an attempt keeps. -/
theorem keeps_attempt
    {R : World → World → Prop}
    [IsPreorder World R]
    {config : Config}
    {hostname : String}
    {ws : Path}
    (hKey : Act.Keeps R (Tool.run (keyCommand config ws)))
    (hRequest :
      Act.Keeps R
        (Tool.run (requestCommand config hostname ws)))
    (hSign :
      Act.Keeps R
        (Tool.run (signCommand config hostname ws))) :
    Act.Keeps R (attempt config hostname ws) := by
  refine Act.Keeps.bind hKey ?_
  intro _
  refine Act.Keeps.bind hRequest ?_
  intro _
  refine Act.Keeps.bind hSign ?_
  intro _
  exact Workspace.keeps_readMaterial _ _

/- What relates its commands and reading relates attempts. -/
theorem relates_attempt
    {R : World → World → Prop}
    {Q : Material → Material → Prop}
    {config : Config}
    {hostname : String}
    {ws : Path}
    (hRun :
      ∀ c ∈ [keyCommand config ws,
          requestCommand config hostname ws,
          signCommand config hostname ws],
        Act.Relates R Eq (Tool.run c) (Tool.run c))
    (hRead :
      Act.Relates R Q
        (Workspace.readMaterial (keyFile ws) (certFile ws))
        (Workspace.readMaterial (keyFile ws)
          (certFile ws))) :
    Act.Relates R Q (attempt config hostname ws)
      (attempt config hostname ws) := by
  refine Act.Relates.bind (hRun _ (by simp)) ?_
  intro _ _ _
  refine Act.Relates.bind (hRun _ (by simp)) ?_
  intro _ _ _
  refine Act.Relates.bind (hRun _ (by simp)) ?_
  intro _ _ _
  exact hRead

theorem keeps_leads_issue
    (config : Config)
    (hostname : String) :
    Act.Keeps World.Leads (issue config hostname) := by
  refine Act.Keeps.bind ?_ ?_
  · refine Workspace.keeps_leads_within ?_
    intro ws
    exact keeps_attempt (Tool.keeps_leads_run _)
      (Tool.keeps_leads_run _) (Tool.keeps_leads_run _)
  · intro m
    apply Act.Keeps.telling
    intro w
    exact World.leads_report w _

end Manual

------------------------------------------------------------
-- Strategies In Order
------------------------------------------------------------

namespace Provisioner

/- The standard provisioner tries two strategies. -/
theorem forall_standard
    {P : Strategy → Prop}
    {config : World → Config}
    (hTrusted : P (.trusted config))
    (hManual : P (.manual config)) :
    ∀ s ∈ (standard config).fallible ++
        [(standard config).last],
      P s := by
  intro s hs
  simp only [standard, List.cons_append, List.nil_append,
    List.mem_cons, List.not_mem_nil, or_false] at hs
  rcases hs with rfl | rfl
  · exact hTrusted
  · exact hManual

variable {R : World → World → Prop}
variable [IsPreorder World R]

/- What each strategy keeps, trying them keeps. -/
theorem keeps_tryEach
    {hostname : String}
    {last : Strategy}
    {strategies : List Strategy}
    (hReport : ∀ w e, R w (World.report w e))
    (hEach :
      ∀ s ∈ strategies ++ [last],
        Act.Keeps R (s.issue hostname)) :
    Act.Keeps R (tryEach hostname last strategies) := by
  induction strategies with
  | nil => exact hEach last (by simp)
  | cons s ss ih =>
      have hRest := ih (fun x hx => hEach x (by simp [hx]))
      refine Act.Keeps.orElseWith (hEach s (by simp)) ?_
      intro f
      split
      · refine Act.Keeps.bind (Act.Keeps.report ?_) ?_
        · intro w
          exact hReport w _
        · intro _
          exact hRest
      · exact Act.Keeps.fail f

theorem keeps_provision
    {p : Provisioner}
    {hostname : String}
    (hReport : ∀ w e, R w (World.report w e))
    (hEach :
      ∀ s ∈ p.fallible ++ [p.last], ∀ h,
        Act.Keeps R (s.issue h)) :
    Act.Keeps R (p.provision hostname) := by
  unfold provision
  split
  · exact Act.Keeps.fail _
  · exact keeps_tryEach hReport (fun s hs => hEach s hs _)

omit [IsPreorder World R] in
/- What each strategy relates, trying them relates. -/
theorem relates_tryEach
    {Q : Material → Material → Prop}
    {hostname : String}
    {last : Strategy}
    {strategies : List Strategy}
    (hReport :
      ∀ e, Act.Relates R Eq (Act.report e) (Act.report e))
    (hEach :
      ∀ s ∈ strategies ++ [last],
        Act.Relates R Q (s.issue hostname)
          (s.issue hostname)) :
    Act.Relates R Q (tryEach hostname last strategies)
      (tryEach hostname last strategies) := by
  induction strategies with
  | nil => exact hEach last (by simp)
  | cons s ss ih =>
      have hRest := ih (fun x hx => hEach x (by simp [hx]))
      refine Act.Relates.orElseWith (hEach s (by simp)) ?_
      intro f
      split
      · refine Act.Relates.bind (hReport _) ?_
        intro _ _ _
        exact hRest
      · exact Act.Relates.fail f

omit [IsPreorder World R] in
theorem relates_provision
    {Q : Material → Material → Prop}
    {p : Provisioner}
    {hostname : String}
    (hReport :
      ∀ e, Act.Relates R Eq (Act.report e) (Act.report e))
    (hEach :
      ∀ s ∈ p.fallible ++ [p.last], ∀ h,
        Act.Relates R Q (s.issue h) (s.issue h)) :
    Act.Relates R Q (p.provision hostname)
      (p.provision hostname) := by
  unfold provision
  split
  · exact Act.Relates.fail _
  · exact relates_tryEach hReport (fun s hs => hEach s hs _)

end Provisioner

end LocalCert
