import LocalCert.Proofs.Tool.Sequence
import LocalCert.Proofs.Workspace.Lifetime

/-
  Two worlds in which the same is done, step by step.  They
  differ in how their files are related, in what has been
  done before, and in which removals of workspaces fail; as
  long as their files give the same answers, the results are
  the same, the same processes are started, and the same is
  reported but for the removals that fail.

  Main declarations:
    * `World.Abreast`
    * `World.Abreast.report`
    * `Tool.abreast_run`
    * `Workspace.abreast_readMaterial`
    * `Workspace.abreast_within`
-/

------------------------------------------------------------
-- The Relation
------------------------------------------------------------

namespace LocalCert

/- Whether an event warns of a failed removal. -/
def Event.isRemoval : Event → Bool
  | .workspaceNotRemoved _ _ => true
  | _ => false

namespace World

/- What has been reported, but for failed removals. -/
def told
    (w : World) : List Event :=
  w.journal.filter (fun e => !e.isRemoval)

/- Worlds in which the same settings are found. -/
structure SameSettings
    (w v : World) : Prop where
  cwd : v.cwd = w.cwd
  tempDir : v.tempDir = w.tempDir
  config : v.config = w.config
  logger : v.logger = w.logger

/-
  How the files of two worlds are related after a number of
  names have been tried for workspaces.
-/
abbrev FileRelation : Type :=
  Nat → Files.Tree → Files.Tree → Prop

/-
  Whether two worlds have come of two others by the same
  calls and reports, and go on with the same behaviours and
  names.
-/
structure Abreast
    (F : FileRelation)
    (w₀ v₀ w v : World) : Prop where
  settings : w₀.SameSettings v₀
  leads : w₀.Leads w
  twinLeads : v₀.Leads v
  script : v.script = w.script
  namesTried : v.namesTried = w.namesTried
  removalsTried :
    ∃ count,
      w.removalsTried = w₀.removalsTried + count ∧
        v.removalsTried = v₀.removalsTried + count
  calls :
    ∃ started,
      w.calls = w₀.calls ++ started ∧
        v.calls = v₀.calls ++ started
  told :
    ∃ events,
      w.told = w₀.told ++ events ∧
        v.told = v₀.told ++ events
  files : F w.namesTried w.files v.files

variable {F G : FileRelation}
variable {w₀ v₀ w v : World}

/- Two worlds that are about to start. -/
theorem abreast_self
    (hSettings : w.SameSettings v)
    (hScript : v.script = w.script)
    (hTried : v.namesTried = w.namesTried)
    (hFiles : F w.namesTried w.files v.files) :
    Abreast F w v w v where
  settings := hSettings
  leads := .refl w
  twinLeads := .refl v
  script := hScript
  namesTried := hTried
  removalsTried := ⟨0, rfl, rfl⟩
  calls := ⟨[], by simp⟩
  told := ⟨[], by simp⟩
  files := hFiles

namespace Abreast

theorem cwd
    (hWorlds : Abreast F w₀ v₀ w v) :
    v.cwd = w.cwd := by
  rw [hWorlds.twinLeads.cwd, hWorlds.settings.cwd,
    hWorlds.leads.cwd]

theorem tempDir
    (hWorlds : Abreast F w₀ v₀ w v) :
    v.tempDir = w.tempDir := by
  rw [hWorlds.twinLeads.tempDir, hWorlds.settings.tempDir,
    hWorlds.leads.tempDir]

theorem config
    (hWorlds : Abreast F w₀ v₀ w v) :
    v.config = w.config := by
  rw [hWorlds.twinLeads.config, hWorlds.settings.config,
    hWorlds.leads.config]

theorem logger
    (hWorlds : Abreast F w₀ v₀ w v) :
    v.logger = w.logger := by
  rw [hWorlds.twinLeads.logger, hWorlds.settings.logger,
    hWorlds.leads.logger]

/- The files may be related in another way. -/
theorem withFiles
    (hWorlds : Abreast F w₀ v₀ w v)
    (hFiles : G w.namesTried w.files v.files) :
    Abreast G w₀ v₀ w v :=
  { hWorlds with files := hFiles }

end Abreast

theorem report_told
    (w : World)
    (e : Event) :
    (w.report e).told =
      w.told ++
        if w.logger.isEnabled e.level && !e.isRemoval then
          [e]
        else
          [] := by
  rw [told, report_journal, List.filter_append, told]
  cases w.logger.isEnabled e.level <;>
    cases hRemoval : e.isRemoval <;> simp [hRemoval]

@[simp] theorem report_namesTried
    (w : World)
    (e : Event) :
    (w.report e).namesTried = w.namesTried := by
  unfold report
  split <;> rfl

@[simp] theorem report_removalsTried
    (w : World)
    (e : Event) :
    (w.report e).removalsTried = w.removalsTried := by
  unfold report
  split <;> rfl

/- Both worlds report the same event. -/
theorem Abreast.report
    (hWorlds : Abreast F w₀ v₀ w v)
    (e : Event) :
    Abreast F w₀ v₀ (w.report e) (v.report e) where
  settings := hWorlds.settings
  leads := hWorlds.leads.trans (leads_report w e)
  twinLeads := hWorlds.twinLeads.trans (leads_report v e)
  script := by
    rw [report_script, report_script, hWorlds.script]
  namesTried := by
    rw [report_namesTried, report_namesTried,
      hWorlds.namesTried]
  removalsTried := by
    rw [report_removalsTried, report_removalsTried]
    exact hWorlds.removalsTried
  calls := by
    rw [report_calls, report_calls]
    exact hWorlds.calls
  told := by
    rcases hWorlds.told with ⟨events, hLeft, hRight⟩
    refine ⟨events ++ if w.logger.isEnabled e.level &&
        !e.isRemoval then [e] else [], ?_, ?_⟩
    · rw [report_told, hLeft, List.append_assoc]
    · rw [report_told, hRight, hWorlds.logger,
        List.append_assoc]
  files := by
    rw [report_namesTried, report_files, report_files]
    exact hWorlds.files

/- Both worlds note the same call. -/
theorem Abreast.note
    (hWorlds : Abreast F w₀ v₀ w v)
    (c : Call) :
    Abreast F w₀ v₀ (w.note c) (v.note c) := by
  rcases hWorlds.calls with ⟨started, hLeft, hRight⟩
  exact
    { hWorlds with
      leads := hWorlds.leads.trans (leads_note w c)
      twinLeads := hWorlds.twinLeads.trans (leads_note v c)
      calls := by
        refine ⟨started ++ [c], ?_, ?_⟩
        · simp [World.note, hLeft]
        · simp [World.note, hRight] }

end World

open World (Abreast FileRelation)

variable {F G : FileRelation}
variable {w₀ v₀ w v : World}

theorem Act.abreast_report
    (e : Event) :
    Act.Relates (Abreast F w₀ v₀) Eq (Act.report e)
      (Act.report e) := by
  intro w v hWorlds
  exact ⟨rfl, hWorlds.report e⟩

------------------------------------------------------------
-- Tools
------------------------------------------------------------

namespace Tool

/- Starting a process, in terms of the behaviour to come. -/
theorem runIn_start
    (c : Command)
    (w : World) :
    (start c).runIn w =
      (.ok (w.behaviourAt 0).ending,
        { w with
          script := w.script.tail
          calls := w.calls ++ [c.call]
          files :=
            leaveFiles c.argv (w.behaviourAt 0) w.cwd
              w.files }) := by
  rcases w with ⟨files, cwd, tempDir, script⟩
  cases script with
  | nil => rfl
  | cons b bs => rfl

theorem abreast_start
    {c : Command}
    (hLeave :
      ∀ b ∈ ({} : Behaviour) :: w₀.script,
        ∀ n t u, F n t u →
          F n (leaveFiles c.argv b w₀.cwd t)
            (leaveFiles c.argv b w₀.cwd u)) :
    Act.Relates (Abreast F w₀ v₀) Eq
      (start c) (start c) := by
  intro w v hWorlds
  have hLeads := keeps_leads_start c w
  have hTwinLeads := keeps_leads_start c v
  have hNext : v.behaviourAt 0 = w.behaviourAt 0 := by
    rw [World.behaviourAt, hWorlds.script, World.behaviourAt]
  have hScript :
      w.behaviourAt 0 ∈ ({} : Behaviour) :: w₀.script :=
    hWorlds.leads.behaviours_subset (w.behaviourAt_mem 0)
  rw [runIn_start] at hLeads hTwinLeads ⊢
  rw [runIn_start]
  rcases hWorlds.calls with ⟨started, hLeft, hRight⟩
  refine ⟨congrArg Behaviour.ending hNext.symm,
    { settings := hWorlds.settings
      leads := hWorlds.leads.trans hLeads
      twinLeads := hWorlds.twinLeads.trans hTwinLeads
      script := congrArg List.tail hWorlds.script
      namesTried := hWorlds.namesTried
      removalsTried := hWorlds.removalsTried
      calls := ⟨started ++ [c.call], ?_, ?_⟩
      told := hWorlds.told
      files := ?_ }⟩
  · simp [hLeft]
  · simp [hRight]
  · simp only [hNext, hWorlds.cwd, hWorlds.leads.cwd]
    exact hLeave _ hScript _ _ _ hWorlds.files

/- Running a command whose process acts alike in both. -/
theorem abreast_run
    {c : Command}
    (hLeave :
      ∀ b ∈ ({} : Behaviour) :: w₀.script,
        ∀ n t u, F n t u →
          F n (leaveFiles c.argv b w₀.cwd t)
            (leaveFiles c.argv b w₀.cwd u)) :
    Act.Relates (Abreast F w₀ v₀) Eq (run c) (run c) := by
  unfold run
  split
  · exact Act.Relates.fail _
  · refine Act.Relates.bind (Act.abreast_report _) ?_
    intro _ _ _
    refine Act.Relates.bind (abreast_start hLeave) ?_
    rintro ending _ rfl
    refine Act.Relates.of ?_
    intro w v hWorlds
    exact ⟨Match.refl (fun _ => rfl) _, hWorlds⟩

end Tool

------------------------------------------------------------
-- Workspaces
------------------------------------------------------------

namespace Workspace

/- Reading files that read the same. -/
theorem abreast_readMaterial
    {keyPath certPath : String}
    (hRead :
      ∀ text ∈ [keyPath, certPath],
        ∀ n t u, F n t u →
          t.read w₀.cwd text = u.read w₀.cwd text) :
    Act.Relates (Abreast F w₀ v₀) Eq
      (readMaterial keyPath certPath)
      (readMaterial keyPath certPath) := by
  intro w v hWorlds
  have hText :
      ∀ text ∈ [keyPath, certPath],
        readText v text = readText w text := by
    intro text hOne
    have hSame := hRead text hOne _ _ _ hWorlds.files
    rw [← hWorlds.leads.cwd] at hSame
    unfold readText
    rw [hWorlds.cwd, hSame]
  simp only [List.forall_mem_cons, List.not_mem_nil,
    false_implies, implies_true, and_true] at hText
  have hResults :
      ((readMaterial keyPath certPath).runIn w).1 =
        ((readMaterial keyPath certPath).runIn v).1 := by
    simp only [readMaterial, Act.runIn_of, hText.1, hText.2]
    cases readText w keyPath with
    | error f => rfl
    | ok key => cases readText w certPath <;> rfl
  rw [hResults, readMaterial_world, readMaterial_world]
  exact ⟨Match.refl (fun _ => rfl) _, hWorlds⟩

/- A place in both worlds for the same new workspace. -/
structure Fits
    (directory start : String)
    (w v : World)
    (n : Nat)
    (l : Files.Location) : Prop where
  fresh : w.namesTried < n
  place :
    w.files.HasPlace w.cwd (nameAt directory start n) l
  twinPlace :
    v.files.HasPlace w.cwd (nameAt directory start n) l

/- A workspace among the names leaves a world of the course. -/
theorem keeps_leads_tryNames
    {directory start : String}
    {tries : Nat}
    {result : Except Failure Path}
    {w after : World}
    (hTry :
      tryNames directory start tries w = (result, after)) :
    w.Leads after := by
  have hLeads := leads_tryNames directory start tries w
  rw [hTry] at hLeads
  exact hLeads

/-
  Trying the same names in both worlds, where each attempt
  to make a directory comes to the same.
-/
theorem tryNames_pair
    {directory start : String}
    {w v : World}
    (tries : Nat)
    (hCwd : v.cwd = w.cwd)
    (hTried : v.namesTried = w.namesTried)
    (hMake :
      ∀ n, w.namesTried < n →
        Match (fun _ _ => True)
          (w.files.makeDirectory w.cwd privateMode
            (nameAt directory start n))
          (v.files.makeDirectory w.cwd privateMode
            (nameAt directory start n))) :
    (∃ f k,
        w.namesTried ≤ k ∧
          tryNames directory start tries w =
            (.error f, { w with namesTried := k }) ∧
          tryNames directory start tries v =
            (.error f, { v with namesTried := k })) ∨
      ∃ n l,
        Fits directory start w v n l ∧
          tryNames directory start tries w =
            (.ok (Path.ofText (nameAt directory start n)),
              { w with
                namesTried := n
                files :=
                  w.files.put l (.directory privateMode) }) ∧
          tryNames directory start tries v =
            (.ok (Path.ofText (nameAt directory start n)),
              { v with
                namesTried := n
                files :=
                  v.files.put l
                    (.directory privateMode) }) := by
  induction tries generalizing w v with
  | zero =>
      refine .inl ⟨.workspaceNotCreated noName, w.namesTried,
        Nat.le_refl _, rfl, ?_⟩
      rw [← hTried]
      rfl
  | succ tries ih =>
      have hNext := Nat.lt_succ_self w.namesTried
      simp only [tryNames, hTried, hCwd]
      split
      · exact .inl ⟨.nulInPath, w.namesTried + 1,
          Nat.le_succ _, rfl, rfl⟩
      · rcases (hMake _ hNext).cases with
          ⟨r, hLeft, hRight⟩ | ⟨t, u, hLeft, hRight, _⟩
        · rw [nameAt] at hLeft hRight
          rw [hLeft, hRight]
          cases r with
          | alreadyExists =>
              have hLater :
                  ∀ n, w.namesTried + 1 < n →
                    Match (fun _ _ => True)
                      (w.files.makeDirectory w.cwd
                        privateMode
                        (nameAt directory start n))
                      (v.files.makeDirectory w.cwd
                        privateMode
                        (nameAt directory start n)) := by
                intro n hn
                exact hMake n (Nat.lt_of_succ_lt hn)
              rcases ih
                  (w := { w with
                    namesTried := w.namesTried + 1 })
                  (v := { v with
                    namesTried := w.namesTried + 1 })
                  hCwd rfl hLater with
                ⟨f, k, hMore, hTry, hTryTwin⟩ |
                  ⟨n, l, hFits, hTry, hTryTwin⟩
              · simp only [hCwd] at hTryTwin
                exact .inl
                  ⟨f, k, Nat.le_of_succ_le hMore, hTry,
                    hTryTwin⟩
              · simp only [hCwd] at hTryTwin
                exact .inr
                  ⟨n, l,
                    ⟨Nat.lt_of_succ_lt hFits.fresh,
                      hFits.place, hFits.twinPlace⟩,
                    hTry, hTryTwin⟩
          | _ => exact .inl ⟨_, w.namesTried + 1,
              Nat.le_succ _, rfl, rfl⟩
        · rcases Files.Tree.makeDirectory_eq_ok_iff.mp hLeft
            with ⟨l, hPlace, rfl⟩
          rcases Files.Tree.makeDirectory_eq_ok_iff.mp hRight
            with ⟨k, hTwin, rfl⟩
          have hSame : k = l := by
            rw [Files.Tree.locate_eq_ok hPlace.located,
              Files.Tree.locate_eq_ok hTwin.located]
          subst hSame
          rw [nameAt] at hLeft hRight
          rw [hLeft, hRight]
          refine .inr ⟨w.namesTried + 1, k,
            ⟨hNext, hPlace, hTwin⟩, rfl, rfl⟩

/-
  Making a workspace in both worlds fails in the same way,
  or gives the same workspace.
-/
theorem abreast_create
    {start : String}
    {parent : Option Path}
    (hWorlds : Abreast F w₀ v₀ w v)
    (hStill :
      ∀ n, w.namesTried ≤ n → F n w.files v.files)
    (hMake :
      ∀ n, w.namesTried < n →
        Match (fun _ _ => True)
          (w.files.makeDirectory w.cwd privateMode
            (nameAt (directoryOf w parent) start n))
          (v.files.makeDirectory w.cwd privateMode
            (nameAt (directoryOf w parent) start n))) :
    (∃ f w' v',
        (create start parent).runIn w = (.error f, w') ∧
          (create start parent).runIn v = (.error f, v') ∧
          Abreast F w₀ v₀ w' v') ∨
      ∃ n l w' v',
        let ws :=
          Path.ofText
            (nameAt (directoryOf w parent) start n)
        Fits (directoryOf w parent) start w v n l ∧
          (create start parent).runIn w = (.ok ws, w') ∧
          (create start parent).runIn v = (.ok ws, v') ∧
          Abreast
            (fun k t u =>
              k = n ∧
                t =
                  w.files.put l (.directory privateMode) ∧
                u =
                  v.files.put l (.directory privateMode))
            w₀ v₀ w' v' := by
  have hLeads := keeps_leads_create start parent w
  have hTwinLeads := keeps_leads_create start parent v
  have hDirectory :
      directoryOf v parent = directoryOf w parent := by
    unfold directoryOf
    rw [hWorlds.tempDir]
  rcases tryNames_pair maxTries hWorlds.cwd
      hWorlds.namesTried hMake with
    ⟨f, k, hMore, hTry, hTwin⟩ |
      ⟨n, l, hFits, hTry, hTwin⟩
  · have hRun :
        (create start parent).runIn w =
          (.error f, { w with namesTried := k }) := by
      rw [create, Act.runIn_bind, Act.runIn_of, hTry]
    have hRunTwin :
        (create start parent).runIn v =
          (.error f, { v with namesTried := k }) := by
      rw [create, Act.runIn_bind, Act.runIn_of, hDirectory,
        hTwin]
    rw [hRun] at hLeads
    rw [hRunTwin] at hTwinLeads
    refine .inl ⟨f, _, _, hRun, hRunTwin,
      { hWorlds with
        leads := hWorlds.leads.trans hLeads
        twinLeads := hWorlds.twinLeads.trans hTwinLeads
        namesTried := rfl
        files := hStill k hMore }⟩
  · have hMade :
        Abreast
          (fun k t u =>
            k = n ∧
              t = w.files.put l (.directory privateMode) ∧
              u = v.files.put l (.directory privateMode))
          w₀ v₀
          { w with
            namesTried := n
            files := w.files.put l (.directory privateMode) }
          { v with
            namesTried := n
            files :=
              v.files.put l (.directory privateMode) } := by
      have hFiles := keeps_leads_tryNames hTry
      have hTwinFiles := keeps_leads_tryNames hTwin
      exact
        { hWorlds with
          leads := hWorlds.leads.trans hFiles
          twinLeads := hWorlds.twinLeads.trans hTwinFiles
          namesTried := rfl
          files := ⟨rfl, rfl, rfl⟩ }
    refine .inr ⟨n, l, _, _, hFits, ?_, ?_,
      hMade.report (.workspaceCreated
        (Path.ofText
          (nameAt (directoryOf w parent) start n)).text)⟩
    · rw [create, Act.runIn_bind, Act.runIn_of, hTry]
      rfl
    · rw [create, Act.runIn_bind, Act.runIn_of, hDirectory,
        hTwin]
      rfl

/- Closing a workspace tells at most of a failed removal. -/
theorem close_told
    (ws : Path)
    (w : World) :
    (close ws w).told = w.told := by
  rw [close_eq]
  simp only [World.told, List.filter_append]
  split
  · cases closingFault ws w <;> simp [Event.isRemoval]
  · simp

theorem abreast_close
    (ws : Path)
    (hWorlds : Abreast F w₀ v₀ w v)
    (hFiles :
      G w.namesTried (close ws w).files
        (close ws v).files) :
    Abreast G w₀ v₀ (close ws w) (close ws v) := by
  exact
    { settings := hWorlds.settings
      leads := hWorlds.leads.trans (leads_close ws w)
      twinLeads := hWorlds.twinLeads.trans (leads_close ws v)
      script := by
        rw [close_script, close_script, hWorlds.script]
      namesTried := by
        rw [close_namesTried, close_namesTried,
          hWorlds.namesTried]
      removalsTried := by
        rcases hWorlds.removalsTried with
          ⟨count, hCount, hTwinCount⟩
        refine ⟨count + 1, ?_, ?_⟩
        · rw [close_removalsTried, hCount, Nat.add_assoc]
        · rw [close_removalsTried, hTwinCount,
            Nat.add_assoc]
      calls := by
        rw [close_calls, close_calls]
        exact hWorlds.calls
      told := by
        rw [close_told, close_told]
        exact hWorlds.told
      files := by
        rw [close_namesTried]
        exact hFiles }

/-
  What is done in a workspace of its own gives the same in
  both worlds, if it does so in any workspace made in both.
-/
theorem abreast_within
    {α β : Type}
    {Q : α → β → Prop}
    {start : String}
    {parent : Option Path}
    {body : Path → Act α}
    {twin : Path → Act β}
    (hWorlds : Abreast F w₀ v₀ w v)
    (hStill :
      ∀ n, w.namesTried ≤ n → G n w.files v.files)
    (hMake :
      ∀ n, w.namesTried < n →
        Match (fun _ _ => True)
          (w.files.makeDirectory w.cwd privateMode
            (nameAt (directoryOf w parent) start n))
          (v.files.makeDirectory w.cwd privateMode
            (nameAt (directoryOf w parent) start n)))
    (hBody :
      ∀ n l w' v',
        let ws :=
          Path.ofText
            (nameAt (directoryOf w parent) start n)
        Fits (directoryOf w parent) start w v n l →
        Abreast
            (fun k t u =>
              k = n ∧
                t =
                  w.files.put l (.directory privateMode) ∧
                u =
                  v.files.put l (.directory privateMode))
            w₀ v₀ w' v' →
        let after := ((body ws).runIn w').2
        let twinAfter := ((twin ws).runIn v').2
        Match Q ((body ws).runIn w').1
            ((twin ws).runIn v').1 ∧
          Abreast G w₀ v₀ (close ws after)
            (close ws twinAfter)) :
    Match Q ((within start parent body).runIn w).1
        ((within start parent twin).runIn v).1 ∧
      Abreast G w₀ v₀
        ((within start parent body).runIn w).2
        ((within start parent twin).runIn v).2 := by
  have hStart : Abreast G w₀ v₀ w v :=
    hWorlds.withFiles (hStill _ (Nat.le_refl _))
  rw [within, within]
  rcases abreast_create hStart hStill hMake with
    ⟨f, w', v', hRun, hTwin, hAfter⟩ |
      ⟨n, l, w', v', hFits, hRun, hTwin, hMade⟩
  · rw [Act.runIn_bind_error hRun,
      Act.runIn_bind_error hTwin]
    exact ⟨rfl, hAfter⟩
  · rw [Act.runIn_bind_ok hRun, Act.runIn_bind_ok hTwin,
      Act.runIn_ensuring, Act.runIn_ensuring]
    exact hBody n l w' v' hFits hMade

/-
  What is done in a workspace, for files that are related
  before and during the work in the same way.
-/
theorem abreast_within_of
    {A B : Files.Tree → Files.Tree → Prop}
    {α β : Type}
    {Q : α → β → Prop}
    {start : String}
    {parent : Option Path}
    {body : Path → Act α}
    {twin : Path → Act β}
    (hStill : ∀ t u, A t u → B t u)
    (hMake :
      ∀ n t u, A t u →
        Match A
          (t.makeDirectory w₀.cwd privateMode
            (nameAt (directoryOf w₀ parent) start n))
          (u.makeDirectory w₀.cwd privateMode
            (nameAt (directoryOf w₀ parent) start n)))
    (hBody :
      ∀ n,
        let ws :=
          Path.ofText
            (nameAt (directoryOf w₀ parent) start n)
        Act.Relates (Abreast (fun _ => A) w₀ v₀) Q (body ws)
          (twin ws))
    (hClose :
      ∀ ws w v,
        Abreast (fun _ => A) w₀ v₀ w v →
        B (close ws w).files (close ws v).files)
    (hWorlds : Abreast (fun _ => A) w₀ v₀ w v) :
    Match Q ((within start parent body).runIn w).1
        ((within start parent twin).runIn v).1 ∧
      Abreast (fun _ => B) w₀ v₀
        ((within start parent body).runIn w).2
        ((within start parent twin).runIn v).2 := by
  have hDirectory :
      directoryOf w parent = directoryOf w₀ parent := by
    unfold directoryOf
    rw [hWorlds.leads.tempDir]
  have hMatch :
      ∀ n,
        Match A
          (w.files.makeDirectory w.cwd privateMode
            (nameAt (directoryOf w parent) start n))
          (v.files.makeDirectory w.cwd privateMode
            (nameAt (directoryOf w parent) start n)) := by
    intro n
    rw [hDirectory, hWorlds.leads.cwd]
    exact hMake n _ _ hWorlds.files
  refine abreast_within hWorlds ?_ ?_ ?_
  · intro n _
    exact hStill _ _ hWorlds.files
  · intro n _
    exact (hMatch n).mono (fun _ _ _ => trivial)
  · intro n l w' v' ws hFits hMade after twinAfter
    have hPlaces := hMatch n
    rw [Files.Tree.makeDirectory_eq_ok_iff.mpr
        ⟨l, hFits.place, rfl⟩,
      Files.Tree.makeDirectory_eq_ok_iff.mpr
        ⟨l, hFits.twinPlace, rfl⟩] at hPlaces
    have hStarted : Abreast (fun _ => A) w₀ v₀ w' v' := by
      refine hMade.withFiles ?_
      rcases hMade.files with ⟨_, hLeft, hRight⟩
      rw [hLeft, hRight]
      exact hPlaces
    have hWork := hBody n
    rw [← hDirectory] at hWork
    rcases hWork w' v' hStarted with ⟨hResults, hAfter⟩
    exact ⟨hResults, abreast_close ws hAfter
      (hClose ws _ _ hAfter)⟩

end Workspace

end LocalCert
