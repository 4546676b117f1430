import LocalCert.Proofs.Files.Leftovers
import LocalCert.Proofs.Manual.Stages
import LocalCert.Proofs.World.Sides

/-
  The three steps in two worlds.  They give the same if the
  files of the worlds are related in a way that they cope
  with, such as that the files are the same, or that they
  are the same apart from a workspace of the trusted tool.

  Main declarations:
    * `Manual.Copes`
    * `Manual.abreast_issue`
    * `Manual.copes_eq`
    * `World.Overlooks`
    * `Manual.copes_beside`
    * `Manual.overlooks_of_plain`
-/

------------------------------------------------------------
-- Coping
------------------------------------------------------------

namespace LocalCert

open World (Abreast FileRelation)

variable {w₀ v₀ w v : World}
variable {hostname : String}

namespace Manual

/- The workspace of the three steps that is tried n-th. -/
abbrev workspaceIn
    (w : World)
    (n : Nat) : Path :=
  w.workspaceAt workspaceStart n

/-
  Whether all that the three steps do with files comes to
  the same for files that are related.
-/
structure Copes
    (F : Files.Tree → Files.Tree → Prop)
    (w₀ : World)
    (hostname : String) : Prop where
  make :
    ∀ n t u, F t u →
      Match F
        (t.makeDirectory w₀.cwd Workspace.privateMode
          (Workspace.nameAt
            (Workspace.directoryOf w₀ w₀.config.workspaceDir)
            workspaceStart n))
        (u.makeDirectory w₀.cwd Workspace.privateMode
          (Workspace.nameAt
            (Workspace.directoryOf w₀ w₀.config.workspaceDir)
            workspaceStart n))
  leave :
    ∀ n,
      ∀ c ∈ commands w₀.config hostname (workspaceIn w₀ n),
        ∀ b ∈ ({} : Behaviour) :: w₀.script,
          ∀ t u, F t u →
            F (Tool.leaveFiles c.argv b w₀.cwd t)
              (Tool.leaveFiles c.argv b w₀.cwd u)
  read :
    ∀ n,
      ∀ text ∈ [keyFile (workspaceIn w₀ n),
          certFile (workspaceIn w₀ n)],
        ∀ t u, F t u →
          t.read w₀.cwd text = u.read w₀.cwd text

variable {F G : Files.Tree → Files.Tree → Prop}

/- Files that are the same. -/
theorem copes_eq
    (w₀ : World)
    (hostname : String) :
    Copes Eq w₀ hostname where
  make := by
    rintro n t _ rfl
    exact Match.refl (fun _ => rfl) _
  leave := by
    rintro n c _ b _ t _ rfl
    rfl
  read := by
    rintro n text _ t _ rfl
    rfl

/- The same settings and behaviours are coped with alike. -/
theorem Copes.of_same
    {x : World}
    (hCopes : Copes F w₀ hostname)
    (hLeads : w₀.Leads x)
    (hScript : x.script = w₀.script) :
    Copes F x hostname := by
  have hDirectory :
      Workspace.directoryOf x x.config.workspaceDir =
        Workspace.directoryOf w₀ w₀.config.workspaceDir := by
    unfold Workspace.directoryOf
    rw [hLeads.config, hLeads.tempDir]
  have hWorkspace :
      ∀ n, workspaceIn x n = workspaceIn w₀ n := by
    intro n
    simp only [workspaceIn, World.workspaceAt, hDirectory]
  refine ⟨?_, ?_, ?_⟩
  · rw [hDirectory, hLeads.cwd]
    exact hCopes.make
  · simp only [hWorkspace, hLeads.config, hLeads.cwd,
      hScript]
    exact hCopes.leave
  · simp only [hWorkspace, hLeads.cwd]
    exact hCopes.read

theorem Copes.relates_attempt
    (hCopes : Copes F w₀ hostname)
    (n : Nat) :
    Act.Relates (Abreast (fun _ => F) w₀ v₀) Eq
      (attempt w₀.config hostname (workspaceIn w₀ n))
      (attempt w₀.config hostname (workspaceIn w₀ n)) := by
  apply Manual.relates_attempt
  · intro c hc
    apply Tool.abreast_run
    intro b hb _ t u hFiles
    exact hCopes.leave n c hc b hb t u hFiles
  · apply Workspace.abreast_readMaterial
    intro text hText _ t u hFiles
    exact hCopes.read n text hText t u hFiles

/-
  The three steps give the same, start the same processes
  and leave files that are related as closing the workspace
  relates them.
-/
theorem abreast_issue
    (hCopes : Copes F w₀ hostname)
    (hStill : ∀ t u, F t u → G t u)
    (hClose :
      ∀ ws w v,
        Abreast (fun _ => F) w₀ v₀ w v →
        G (Workspace.close ws w).files
          (Workspace.close ws v).files)
    (hWorlds : Abreast (fun _ => F) w₀ v₀ w v) :
    ((issue w₀.config hostname).runIn w).1 =
        ((issue w₀.config hostname).runIn v).1 ∧
      Abreast (fun _ => G) w₀ v₀
        ((issue w₀.config hostname).runIn w).2
        ((issue w₀.config hostname).runIn v).2 := by
  have hWithin :=
    Workspace.abreast_within_of hStill hCopes.make
      hCopes.relates_attempt hClose hWorlds
  have hTold :
      ∀ a b : Material,
        a = b →
        Act.Relates (Abreast (fun _ => G) w₀ v₀) Eq
          (do
            Act.report
              (.selfSigned w₀.config.cryptoTool hostname)
            return a)
          (do
            Act.report
              (.selfSigned w₀.config.cryptoTool hostname)
            return b) := by
    rintro m _ rfl
    exact Act.Relates.telling (Act.abreast_report _) rfl
  exact And.imp_left Match.eq
    (Act.Relates.bind_at hWithin hTold)

------------------------------------------------------------
-- Beside A Workspace Of The Trusted Tool
------------------------------------------------------------

end Manual

/- Whether files are the same outside a location. -/
structure Files.Beside
    (l : Location)
    (t u : Tree) : Prop where
  left : t.WellFormed
  right : u.WellFormed
  same : t.SameOutside l u

theorem Files.Beside.makeDirectory
    {l cwd : Location}
    {t u : Tree}
    {text : String}
    (hCovers :
      (View.apart [l]).Covers cwd (Path.ofText text))
    (mode : Nat)
    (hBeside : Beside l t u) :
    Match (Beside l) (t.makeDirectory cwd mode text)
      (u.makeDirectory cwd mode text) := by
  have hSame := Tree.sameOutside_iff.mp hBeside.same
  have hTree :
      ∀ v v' : Tree,
        v.WellFormed →
        v.makeDirectory cwd mode text = .ok v' →
        v'.WellFormed := by
    intro v v' hv hMake
    rcases Tree.makeDirectory_eq_ok_iff.mp hMake with
      ⟨k, hPlace, rfl⟩
    exact (hPlace.change _).wellFormed hv
  rcases (hSame.makeDirectory hCovers mode).cases with
    ⟨r, hLeft, hRight⟩ | ⟨v, v', hLeft, hRight, hMade⟩
  · rw [hLeft, hRight]
    rfl
  · rw [hLeft, hRight]
    exact
      ⟨hTree t v hBeside.left hLeft,
        hTree u v' hBeside.right hRight,
        Tree.sameOutside_iff.mpr hMade⟩

/-
  Whether the processes of the three steps do the same
  outside any workspace of the trusted tool, whatever is in
  it when they start.
-/
def World.Overlooks
    (w : World)
    (hostname : String) : Prop :=
  ∀ n l,
    w.files.HasPlace w.cwd
      (w.workspaceAt Trusted.workspaceStart n).text l →
    ∀ k,
      ∀ c ∈ Manual.commands w.config hostname
          (Manual.workspaceIn w k),
        ∀ b ∈ ({} : Behaviour) :: w.script,
          ∀ t u,
            Files.Beside l t u →
            (Tool.leaveFiles c.argv b w.cwd t).SameOutside l
              (Tool.leaveFiles c.argv b w.cwd u)

namespace Manual

/- The names of both attempts differ. -/
theorem trusted_ne_workspaceStart
    (n k : Nat) :
    Trusted.workspaceStart ++ Workspace.uniquePart n ≠
      workspaceStart ++ Workspace.uniquePart k := by
  intro hSame
  have hChars := congrArg String.toList hSame
  simp [Trusted.workspaceStart, workspaceStart] at hChars

/- The files that are read, in a view of the workspace. -/
theorem covers_files
    {V : Files.View}
    {cwd : Files.Location}
    {ws : Path}
    (hNormal : ws.IsNormal)
    (hCovers : V.Covers cwd ws)
    (hBelow :
      ∀ m, Files.destination cwd ws <+: m → V.sees m) :
    ∀ text ∈ [keyFile ws, certFile ws],
      V.Covers cwd (Path.ofText text) := by
  intro text hText
  apply hCovers.leadsInto hBelow
  simp only [List.mem_cons, List.not_mem_nil,
    or_false] at hText
  rcases hText with rfl | rfl
  · exact Tool.leadsInto_child hNormal (by decide)
      (by decide)
  · exact Tool.leadsInto_child hNormal (by decide)
      (by decide)

/- Such a workspace is out of the way of the three steps. -/
theorem covers_workspaceIn
    {n : Nat}
    {l : Files.Location}
    (hFiles : w₀.files.WellFormed)
    (hPlace :
      w₀.files.HasPlace w₀.cwd
        (w₀.workspaceAt Trusted.workspaceStart n).text l)
    (k : Nat) :
    (Files.View.apart [l]).Covers w₀.cwd
        (workspaceIn w₀ k) ∧
      ∀ m,
        Files.destination w₀.cwd (workspaceIn w₀ k) <+: m →
        (Files.View.apart [l]).sees m := by
  exact hPlace.covers_other hFiles (by decide) (by decide)
    (trusted_ne_workspaceStart n k)

theorem copes_beside
    {n : Nat}
    {l : Files.Location}
    (hFiles : w₀.files.WellFormed)
    (hPlace :
      w₀.files.HasPlace w₀.cwd
        (w₀.workspaceAt Trusted.workspaceStart n).text l)
    (hOverlooks : w₀.Overlooks hostname) :
    Copes (Files.Beside l) w₀ hostname := by
  have hWorkspace := covers_workspaceIn hFiles hPlace
  exact
    { make := fun k _ _ =>
        Files.Beside.makeDirectory (hWorkspace k).1 _
      leave := by
        intro k c hc b hb t u hBeside
        exact
          ⟨Tool.wellFormed_leaveFiles _ _ _ hBeside.left,
            Tool.wellFormed_leaveFiles _ _ _ hBeside.right,
            hOverlooks n l hPlace k c hc b hb t u hBeside⟩
      read := by
        intro k text hText t u hBeside
        apply (Files.Tree.sameOutside_iff.mp
          hBeside.same).read_eq
        exact covers_files (Path.isNormal_ofText _)
          (hWorkspace k).1 (hWorkspace k).2 text hText }

/-
  Tools and curves that are not named like flags, and files
  with plain names, make all processes overlook it.
-/
theorem overlooks_of_plain
    (hFiles : w₀.files.WellFormed)
    (hConfig : w₀.config.NamesNoFlag)
    (hPlain :
      ∀ b ∈ w₀.script, ∀ f ∈ b.files,
        Files.IsPlainName f.1)
    (hostname : String) :
    w₀.Overlooks hostname := by
  intro n l hPlace k c hc b hb t u hBeside
  have hCommand :
      (c, workspaceIn w₀ k) ∈ w₀.commandsAt hostname k :=
    List.mem_cons_of_mem _
      (List.mem_map_of_mem
        (f := fun c => (c, workspaceIn w₀ k)) hc)
  rcases World.outputs_commandsAt hConfig hCommand with
    ⟨hNormal, names, hNames, hOutputs⟩
  rcases covers_workspaceIn hFiles hPlace k with
    ⟨hCovers, hBelow⟩
  rw [Files.Tree.sameOutside_iff]
  exact Tool.sameIn_of_plain names hNormal hNames hOutputs
    (World.plain_of_mem_script hPlain hb) hCovers hBelow
    hBeside.left hBeside.right
    (Files.Tree.sameOutside_iff.mp hBeside.same)

end Manual

end LocalCert
