import LocalCert.Proofs.Files.Leftovers
import LocalCert.Proofs.Session.Restoring
import LocalCert.Proofs.World.Abreast

/-
  Two worlds with different workspaces left behind in them.
  If tools keep to their workspaces, and new workspaces are
  not made inside old ones, then strategies give the same in
  both.

  Main declarations:
    * `World.Keeping`
    * `World.Sides`
    * `Workspace.relates_sides_within`
    * `Strategy.relates_sides_trusted`
    * `Strategy.relates_sides_manual`
-/

------------------------------------------------------------
-- Tools
------------------------------------------------------------

namespace LocalCert

namespace World

/-
  Whether every process to come, that of a behaviour in the
  script or the usual one, has to do with the workspace of
  the attempt that starts it and with nothing else.
-/
def Keeping
    (w : World) : Prop :=
  ∀ b ∈ ({} : Behaviour) :: w.script,
    ∀ hostname n,
      ∀ c ∈ w.commandsAt hostname n,
        Tool.KeepsTo w.cwd c.2 c.1.argv b

/-
  Tools and curves that are not named like flags, and files
  with plain names, make every process keep to itself.
-/
theorem keeping_of_plain
    {w : World}
    (hConfig : w.config.NamesNoFlag)
    (hPlain :
      ∀ b ∈ w.script, ∀ f ∈ b.files,
        Files.IsPlainName f.1) :
    w.Keeping := by
  intro b hb hostname n c hc
  rcases outputs_commandsAt hConfig hc with
    ⟨hNormal, names, hNames, hOutputs⟩
  exact Tool.keepsTo_of_plain w.cwd names hNormal hNames
    hOutputs (plain_of_mem_script hPlain hb)

/- The directory in which a world makes its workspaces. -/
def directory
    (w : World) : Path :=
  Path.ofText
    (Workspace.directoryOf w w.config.workspaceDir)

/-
  Files that agree with a base apart from workspaces that
  are left, none of which is on the way to new ones.
-/
def Sides
    (base : Files.Tree)
    (w₀ : World) : FileRelation :=
  fun n t u =>
    ∃ places,
      Files.Parted base places n t u ∧
        (Files.View.apart places).Covers w₀.cwd
          w₀.directory

end World

open World (Abreast Sides)

variable {base : Files.Tree}
variable {w₀ v₀ : World}

------------------------------------------------------------
-- Workspaces
------------------------------------------------------------

/- The files in two worlds during the work in a workspace. -/
def World.AtWork
    (w₀ : World)
    (start : String)
    (n : Nat)
    (l : Files.Location)
    (t₀ u₀ : Files.Tree) : World.FileRelation :=
  fun k t u =>
    k = n ∧
      Files.Working w₀.cwd (w₀.workspaceAt start n) l t₀ u₀
        t u

/- Closing a workspace changes nothing outside it. -/
theorem Workspace.close_sameOutside
    {w : World}
    {ws : Path}
    {l : Files.Location}
    (hHosts : w.files.Hosts w.cwd ws.text l) :
    (close ws w).files.WellFormed ∧
      w.files.SameOutside l (close ws w).files := by
  exact
    ⟨(leads_close ws w).files hHosts.wellFormed,
      close_sameOutside_of_ne_nil hHosts.destination_eq
        hHosts.ne_nil⟩

/-
  What is done in a workspace of its own gives the same in
  both worlds, if it does so while it is at work there.
-/
theorem Workspace.relates_sides_within
    {α : Type}
    {start : String}
    {body : Path → Act α}
    (hStart : start ∈ starts)
    (hBody :
      ∀ n l t₀ u₀,
        Act.Relates
          (Abreast (w₀.AtWork start n l t₀ u₀) w₀ v₀) Eq
          (body (w₀.workspaceAt start n))
          (body (w₀.workspaceAt start n))) :
    Act.Relates (Abreast (Sides base w₀) w₀ v₀) Eq
      (within start w₀.config.workspaceDir body)
      (within start w₀.config.workspaceDir body) := by
  intro w v hWorlds
  rcases hWorlds.files with ⟨places, hParted, hCovers⟩
  have hDirectory :
      directoryOf w w₀.config.workspaceDir =
        directoryOf w₀ w₀.config.workspaceDir := by
    unfold directoryOf
    rw [hWorlds.leads.tempDir]
  have hCwd := hWorlds.leads.cwd
  refine abreast_within hWorlds ?_ ?_ ?_
  · intro n hMore
    exact ⟨places, hParted.mono hMore, hCovers⟩
  · intro n hFresh
    rw [hDirectory, hCwd]
    exact hParted.match_makeDirectory hStart hFresh hCovers _
  · intro n l w' v'
    rw [hDirectory]
    intro ws hFits hMade after twinAfter
    have hPlace := hFits.place.ofText
    have hTwin := hFits.twinPlace.ofText
    rw [hCwd] at hPlace hTwin
    have hWork :
        Abreast (w₀.AtWork start n l w.files v.files)
          w₀ v₀ w' v' := by
      refine hMade.withFiles ?_
      rcases hMade.files with ⟨hCount, hLeft, hRight⟩
      rw [hLeft, hRight]
      refine ⟨hCount, hParted.working
        (Path.isNormal_ofText _) ?_ hPlace hTwin⟩
      exact hParted.covers_nameAt hStart hFits.fresh hCovers
    rcases hBody n l w.files v.files w' v' hWork with
      ⟨hResults, hAfter⟩
    refine ⟨hResults, abreast_close ws hAfter ?_⟩
    rcases hAfter.files with ⟨hCount, hWorking⟩
    have hClosed :
        ∀ (x : World) (t₀ : Files.Tree),
          x.cwd = w₀.cwd →
          x.files.Hosts w₀.cwd ws.text l →
          t₀.SameOutside l x.files →
          (close ws x).files.WellFormed ∧
            t₀.SameOutside l (close ws x).files := by
      intro x t₀ hHere hHosts hSame
      rw [← hHere] at hHosts
      rcases close_sameOutside hHosts with ⟨hTree, hKept⟩
      exact ⟨hTree, fun m hm =>
        (hSame m hm).trans (hKept m hm)⟩
    have hLeft :=
      hClosed after w.files hAfter.leads.cwd hWorking.left
        hWorking.leftSame
    have hRight :=
      hClosed twinAfter v.files
        (hAfter.cwd.trans hAfter.leads.cwd)
        hWorking.right hWorking.rightSame
    have hNumber : after.namesTried = n := hCount
    rw [hNumber]
    exact hParted.after hStart hFits.fresh hCovers hPlace
      hLeft.1 hRight.1 hLeft.2 hRight.2

------------------------------------------------------------
-- Attempts
------------------------------------------------------------

namespace World

variable {start : String}
variable {n : Nat}
variable {l : Files.Location}
variable {t₀ u₀ : Files.Tree}

/- A command of the attempt is run alike in both worlds. -/
theorem relates_atWork_run
    {c : Tool.Command}
    (hKeeping : w₀.Keeping)
    (hostname : String)
    (hc :
      (c, w₀.workspaceAt start n) ∈
        w₀.commandsAt hostname n) :
    Act.Relates (Abreast (w₀.AtWork start n l t₀ u₀) w₀ v₀)
      Eq (Tool.run c) (Tool.run c) := by
  apply Tool.abreast_run
  rintro b hb k t u ⟨hCount, hWorking⟩
  exact ⟨hCount,
    hWorking.leaveFiles (hKeeping b hb hostname n _ hc)⟩

/- Reading files of the workspace. -/
theorem relates_atWork_readMaterial
    {key cert : String}
    (hKey : Path.IsPart key ∧ key ≠ "..")
    (hCert : Path.IsPart cert ∧ cert ≠ "..") :
    let ws := w₀.workspaceAt start n
    Act.Relates (Abreast (w₀.AtWork start n l t₀ u₀) w₀ v₀)
      Eq
      (Workspace.readMaterial (ws.child key).text
        (ws.child cert).text)
      (Workspace.readMaterial (ws.child key).text
        (ws.child cert).text) := by
  intro ws
  have hNormal : ws.IsNormal := Path.isNormal_ofText _
  apply Workspace.abreast_readMaterial
  rintro text hText k t u ⟨_, hWorking⟩
  simp only [List.mem_cons, List.not_mem_nil,
    or_false] at hText
  rcases hText with rfl | rfl
  · exact hWorking.read_child hNormal hKey.1 hKey.2
  · exact hWorking.read_child hNormal hCert.1 hCert.2

end World

theorem Trusted.relates_sides_issue
    (hKeeping : w₀.Keeping)
    (hostname : String) :
    Act.Relates (Abreast (Sides base w₀) w₀ v₀) Eq
      (issue w₀.config hostname)
      (issue w₀.config hostname) := by
  refine Act.Relates.bind (Q := Eq)
    (Workspace.relates_sides_within (by decide) ?_) ?_
  · intro n l t₀ u₀
    apply relates_attempt
    · exact World.relates_atWork_run hKeeping hostname
        List.mem_cons_self
    · exact World.relates_atWork_readMaterial
        (by decide) (by decide)
  · rintro m _ rfl
    exact Act.Relates.telling (Act.abreast_report _) rfl

theorem Manual.relates_sides_issue
    (hKeeping : w₀.Keeping)
    (hostname : String) :
    Act.Relates (Abreast (Sides base w₀) w₀ v₀) Eq
      (issue w₀.config hostname)
      (issue w₀.config hostname) := by
  refine Act.Relates.bind (Q := Eq)
    (Workspace.relates_sides_within (by decide) ?_) ?_
  · intro n l t₀ u₀
    apply relates_attempt
    · intro c hc
      refine World.relates_atWork_run hKeeping hostname ?_
      exact List.mem_cons_of_mem _
        (List.mem_map_of_mem
          (f := fun c =>
            (c, w₀.workspaceAt workspaceStart n)) hc)
    · exact World.relates_atWork_readMaterial
        (by decide) (by decide)
  · rintro m _ rfl
    exact Act.Relates.telling (Act.abreast_report _) rfl

------------------------------------------------------------
-- Strategies
------------------------------------------------------------

section

variable {config : World → Config}

theorem Strategy.relates_sides_trusted
    (hKeeping : w₀.Keeping)
    (hConfig :
      ∀ w, w.config = w₀.config → config w = w₀.config)
    (hostname : String) :
    Act.Relates (Abreast (Sides base w₀) w₀ v₀) Eq
      ((Strategy.trusted config).issue hostname)
      ((Strategy.trusted config).issue hostname) := by
  intro w v hWorlds
  rw [runIn_trusted, runIn_trusted,
    hConfig w hWorlds.leads.config,
    hConfig v (hWorlds.config.trans hWorlds.leads.config)]
  exact Trusted.relates_sides_issue hKeeping hostname w v
    hWorlds

theorem Strategy.relates_sides_manual
    (hKeeping : w₀.Keeping)
    (hConfig :
      ∀ w, w.config = w₀.config → config w = w₀.config)
    (hostname : String) :
    Act.Relates (Abreast (Sides base w₀) w₀ v₀) Eq
      ((Strategy.manual config).issue hostname)
      ((Strategy.manual config).issue hostname) := by
  intro w v hWorlds
  rw [runIn_manual, runIn_manual,
    hConfig w hWorlds.leads.config,
    hConfig v (hWorlds.config.trans hWorlds.leads.config)]
  exact Manual.relates_sides_issue hKeeping hostname w v
    hWorlds

/- Given answers depend on the calls so far. -/
theorem Strategy.relates_sides_scripted
    (hCalls : v₀.calls = w₀.calls)
    (position : Nat)
    (a : Answers)
    (hostname : String) :
    Act.Relates (Abreast (Sides base w₀) w₀ v₀) Eq
      ((scripted position a).issue hostname)
      ((scripted position a).issue hostname) := by
  intro w v hWorlds
  rcases hWorlds.calls with ⟨started, hLeft, hRight⟩
  have hSame : v.calls = w.calls := by
    rw [hRight, hLeft, hCalls]
  simp only [scripted, Act.runIn_of, hSame]
  exact ⟨Match.refl (fun _ => rfl) _, hWorlds.note _⟩

end

end LocalCert
