import LocalCert.Proofs.Files.Views
import LocalCert.Proofs.Tool.Confinement

/-
  Processes that have to do with their workspace only: they
  change nothing outside it, and what they leave in it is
  decided by what is in it.  Processes that are told to
  write into the workspace and leave files under plain names
  are among them.

  Main declarations:
    * `Files.Tree.Hosts`
    * `Tool.KeepsTo`
    * `Tool.sameIn_leaveFiles`
    * `Tool.keepsTo_of_plain`
-/

------------------------------------------------------------
-- Views
------------------------------------------------------------

namespace LocalCert

namespace Files

namespace View

/- All locations. -/
def all : View where
  sees := fun _ => True
  up := fun _ _ => trivial

/- The locations that are apart from some others. -/
def apart
    (places : List Location) : View where
  sees := fun m => ∀ l ∈ places, ¬ l <+: m
  up := by
    intro m hApart l hl hAbove
    exact hApart l hl (hAbove.trans (List.dropLast_prefix m))

/- The way to a path, and all that stands below its end. -/
def around
    (cwd : Location)
    (path : Path) : View where
  sees := fun m =>
    (∃ v ∈ wayTo cwd path, m <+: v) ∨
      destination cwd path <+: m
  up := by
    rintro m (⟨v, hWay, hAbove⟩ | hBelow)
    · exact .inl ⟨v, hWay, (List.dropLast_prefix m).trans
        hAbove⟩
    · by_cases hHere : m = destination cwd path
      · subst hHere
        exact .inl ⟨_, destination_mem_wayTo cwd path,
          List.dropLast_prefix _⟩
      · refine .inr ?_
        rcases hBelow with ⟨rest, rfl⟩
        have hSome : rest ≠ [] := by
          rintro rfl
          exact hHere (List.append_nil _)
        rw [List.dropLast_append_of_ne_nil hSome]
        exact List.prefix_append _ _

theorem covers_all
    (cwd : Location)
    (path : Path) :
    all.Covers cwd path :=
  fun _ _ => trivial

theorem covers_around
    (cwd : Location)
    (path : Path) :
    (around cwd path).Covers cwd path := by
  intro m hWay
  exact .inl ⟨m, hWay, List.prefix_rfl⟩

/- What leads into a directory is covered with all of it. -/
theorem Covers.leadsInto
    {V : View}
    {cwd : Location}
    {ws : Path}
    {text : String}
    (hCovers : V.Covers cwd ws)
    (hBelow :
      ∀ m, Files.destination cwd ws <+: m → V.sees m)
    (hInto : ws.LeadsInto text) :
    V.Covers cwd (Path.ofText text) := by
  rcases hInto with ⟨rest, hPlain, hText⟩
  rw [hText]
  exact hCovers.below hBelow hPlain

end View

------------------------------------------------------------
-- Workspaces In A Tree
------------------------------------------------------------

namespace Tree

variable {t u : Tree}
variable {cwd l : Location}
variable {text : String}

theorem sameOutside_iff :
    t.SameOutside l u ↔ t.SameIn (.apart [l]) u := by
  simp only [SameOutside, SameIn, View.apart,
    isPrefixOf_eq_false_iff, List.mem_singleton, forall_eq]

/- Trees that are the same after a cut agree outside it. -/
theorem sameOutside_of_cut_eq
    (hBelow : l ≠ [])
    (hCut : t.cut l = u.cut l) :
    t.SameOutside l u := by
  intro m hOutside
  exact at?_eq_of_cut_eq hBelow hCut
    (isPrefixOf_eq_false_iff.mp hOutside)

/- A place is one in every tree that agrees on its way. -/
theorem HasPlace.of_sameIn
    {V : View}
    (hPlace : t.HasPlace cwd text l)
    (hSame : t.SameIn V u)
    (hCovers : V.Covers cwd (Path.ofText text)) :
    u.HasPlace cwd text l := by
  have hSees := SameIn.sees_of_locate hCovers hPlace.located
  refine ⟨?_, ?_, ?_⟩
  · rw [← hSame.locate_eq hCovers]
    exact hPlace.located
  · rw [← hSame l hSees]
    exact hPlace.free
  · rw [← hSame.checkParent_eq hSees]
    exact hPlace.allowed

/-
  Whether a tree holds a workspace: it may have come of one
  with a place there, by changes in the workspace alone.
-/
structure Hosts
    (t : Tree)
    (cwd : Location)
    (text : String)
    (l : Location) : Prop where
  wellFormed : t.WellFormed
  origin :
    ∃ before : Tree,
      before.WellFormed ∧ before.HasPlace cwd text l ∧
        before.SameOutside l t

namespace Hosts

/- It goes on if the changes stay in the workspace. -/
theorem next
    (hHosts : t.Hosts cwd text l)
    (hTree : u.WellFormed)
    (hSame : t.SameOutside l u) :
    u.Hosts cwd text l := by
  rcases hHosts.origin with
    ⟨before, hBefore, hPlace, hOutside⟩
  refine ⟨hTree, before, hBefore, hPlace, ?_⟩
  intro m hm
  exact (hOutside m hm).trans (hSame m hm)

theorem ne_nil
    (hHosts : t.Hosts cwd text l) :
    l ≠ [] := by
  rcases hHosts.origin with ⟨before, _, hPlace, _⟩
  exact ne_nil_of_at?_eq_none hPlace.free

theorem destination_eq
    (hHosts : t.Hosts cwd text l) :
    destination cwd (Path.ofText text) = l := by
  rcases hHosts.origin with ⟨before, _, hPlace, _⟩
  exact (locate_eq_ok hPlace.located).symm

/- Without the workspace there is a place for it. -/
theorem hasPlace_cut
    (hHosts : t.Hosts cwd text l) :
    (t.cut l).HasPlace cwd text l := by
  rcases hHosts.origin with
    ⟨before, hBefore, hPlace, hOutside⟩
  refine hPlace.of_sameIn (V := .all) ?_
    (View.covers_all cwd _)
  intro m _
  rw [at?_cut hHosts.ne_nil]
  by_cases hBelow : l <+: m
  · rw [if_pos hBelow]
    exact hBefore.at?_eq_none_of_prefix hPlace.free hBelow
  · rw [if_neg hBelow]
    exact hOutside m (isPrefixOf_eq_false_iff.mpr hBelow)

end Hosts

/- A workspace that was just made is held. -/
theorem HasPlace.hosts_put
    (hTree : t.WellFormed)
    (hPlace : t.HasPlace cwd text l)
    (mode : Nat) :
    (t.put l (.directory mode)).Hosts cwd text l := by
  have hBelow := ne_nil_of_at?_eq_none hPlace.free
  refine ⟨(hPlace.change _).wellFormed hTree, t, hTree,
    hPlace, ?_⟩
  exact sameOutside_of_cut_eq hBelow
    (cut_put List.prefix_rfl).symm

end Tree

end Files

------------------------------------------------------------
-- Processes
------------------------------------------------------------

namespace Tool

/-
  Whether a process has to do with its workspace only: it
  leaves all else as it was, and leaves the same in trees
  that agree on the workspace and the way to it.
-/
structure KeepsTo
    (cwd : Files.Location)
    (ws : Path)
    (argv : List String)
    (b : Behaviour) : Prop where
  stays :
    ∀ l (t : Files.Tree),
      t.Hosts cwd ws.text l →
      t.SameOutside l (leaveFiles argv b cwd t)
  alike :
    ∀ l (t u : Files.Tree),
      t.Hosts cwd ws.text l →
      u.Hosts cwd ws.text l →
      t.SameIn (.around cwd ws) u →
      (leaveFiles argv b cwd t).SameIn (.around cwd ws)
        (leaveFiles argv b cwd u)

variable {cwd : Files.Location}
variable {ws : Path}
variable {argv : List String}
variable {b : Behaviour}

/- A process whose paths are covered does not look further. -/
theorem sameIn_leaveFiles
    {V : Files.View}
    {t u : Files.Tree}
    (hCovers :
      ∀ output rest,
        outputs argv = output :: rest →
        ∀ c ∈ besides output b.files ++
            usualContents argv b,
          V.Covers cwd (Path.ofText c.1))
    (hDirectory :
      ∀ output rest,
        outputs argv = output :: rest →
        let path :=
          Path.ofText (Path.ofText output).parent.text
        V.Covers cwd path ∧
          ∀ m, Files.destination cwd path <+: m → V.sees m)
    (hTree : t.WellFormed)
    (hTwin : u.WellFormed)
    (hSame : t.SameIn V u) :
    (leaveFiles argv b cwd t).SameIn V
      (leaveFiles argv b cwd u) := by
  have hBoth :
      (leaveFiles argv b cwd t).WellFormed ∧
        (leaveFiles argv b cwd u).WellFormed ∧
        (leaveFiles argv b cwd t).SameIn V
          (leaveFiles argv b cwd u) := by
    refine leaveFiles_relates
      (R := fun v v' =>
        v.WellFormed ∧ v'.WellFormed ∧ v.SameIn V v')
      ?_ ?_ ⟨hTree, hTwin, hSame⟩
    · rintro output rest hArgv c hc v v' ⟨hv, hv', hTrees⟩
      exact ⟨hv.place c.2, hv'.place c.2,
        hTrees.place (hCovers output rest hArgv c hc) c.2⟩
    · rintro output rest hArgv v v' ⟨hv, hv', hTrees⟩
      rcases hDirectory output rest hArgv with ⟨hWay, hBelow⟩
      exact ⟨hv.removeAll, hv'.removeAll,
        hTrees.removeAll hv hv' hWay hBelow⟩
  exact hBoth.2.2

/- Files of a workspace, in a view with all of it. -/
theorem sameIn_of_plain
    {V : Files.View}
    {t u : Files.Tree}
    (names : List String)
    (hNormal : ws.IsNormal)
    (hNames : names ⊆ workspaceFiles)
    (hOutputs :
      outputs argv =
        names.map (fun name => (ws.child name).text))
    (hFiles : ∀ f ∈ b.files, Files.IsPlainName f.1)
    (hCovers : V.Covers cwd ws)
    (hBelow :
      ∀ m, Files.destination cwd ws <+: m → V.sees m)
    (hTree : t.WellFormed)
    (hTwin : u.WellFormed)
    (hSame : t.SameIn V u) :
    (leaveFiles argv b cwd t).SameIn V
      (leaveFiles argv b cwd u) := by
  refine sameIn_leaveFiles ?_ ?_ hTree hTwin hSame
  · intro output rest hArgv c hc
    exact hCovers.leadsInto hBelow
      ((leadsInto_of_plain hNormal hNames hOutputs hFiles
        hArgv).1 c hc)
  · intro output rest hArgv
    rw [(leadsInto_of_plain hNormal hNames hOutputs hFiles
      hArgv).2, Path.ofText_text hNormal]
    exact ⟨hCovers, hBelow⟩

/-
  A process that is told to write files of a workspace, and
  leaves the others under plain names, keeps to it.
-/
theorem keepsTo_of_plain
    (cwd : Files.Location)
    (names : List String)
    (hNormal : ws.IsNormal)
    (hNames : names ⊆ workspaceFiles)
    (hOutputs :
      outputs argv =
        names.map (fun name => (ws.child name).text))
    (hFiles : ∀ f ∈ b.files, Files.IsPlainName f.1) :
    KeepsTo cwd ws argv b := by
  refine ⟨?_, ?_⟩
  · intro l t hHosts
    have hCut : (t.cut l).WellFormed :=
      Files.Tree.Change.cut.wellFormed hHosts.wellFormed
    have hStays : StaysIn (t.cut l) cwd ws argv b :=
      staysIn_of_plain names hCut hNormal hNames hOutputs
        hFiles
    have hKept :=
      hStays l t hHosts.hasPlace_cut hHosts.wellFormed rfl
    exact Files.Tree.sameOutside_of_cut_eq hHosts.ne_nil
      hKept.symm
  · intro l t u hHosts hTwin hSame
    exact sameIn_of_plain names hNormal hNames hOutputs
      hFiles (Files.View.covers_around cwd ws)
      (fun m hBelow => .inr hBelow) hHosts.wellFormed
      hTwin.wellFormed hSame

end Tool

end LocalCert
