import LocalCert.Proofs.Tool.Locality
import LocalCert.Proofs.Workspace.Names

/-
  Workspaces that are left behind.  Two trees come of one
  with different workspaces still there; in both there is a
  place for the same new workspace, and what is done in it
  does not see what is left.

  Main declarations:
    * `Files.Tree.Leftover`
    * `Files.Parted`
    * `Files.Parted.covers_nameAt`
    * `Files.Working`
    * `Files.Parted.working`
    * `Files.Parted.after`
-/

------------------------------------------------------------
-- What Is Left
------------------------------------------------------------

namespace LocalCert

namespace Files

/- Whether a location belongs to what has newly come about. -/
def Tree.Leftover
    (base t : Tree)
    (m : Location) : Prop :=
  ∃ l, l <+: m ∧ base.at? l = none ∧ t.at? l ≠ none

/-
  Two trees that agree with a third one apart from some
  places.  These are free in the third, taken in one of the
  two, and named like workspaces that have been tried.
-/
structure Parted
    (base : Tree)
    (places : List Location)
    (n : Nat)
    (t u : Tree) : Prop where
  wellFormed : base.WellFormed
  left : t.WellFormed
  right : u.WellFormed
  leftSame : base.SameIn (.apart places) t
  rightSame : base.SameIn (.apart places) u
  free : ∀ l ∈ places, base.at? l = none
  there :
    ∀ l ∈ places, t.at? l ≠ none ∨ u.at? l ≠ none
  named :
    ∀ l ∈ places,
      ∃ start ∈ Workspace.starts, ∃ k ≤ n,
        l.getLast? = some (start ++ Workspace.uniquePart k)

variable {base t u : Tree}
variable {places : List Location}
variable {cwd l : Location}
variable {directory start : String}
variable {n k : Nat}

namespace Parted

/- A tree beside itself. -/
theorem self
    (hBase : base.WellFormed)
    (n : Nat) :
    Parted base [] n base base where
  wellFormed := hBase
  left := hBase
  right := hBase
  leftSame := .refl base
  rightSame := .refl base
  free := by simp
  there := by simp
  named := by simp

/- More names may have been tried. -/
theorem mono
    (hParted : Parted base places n t u)
    (hMore : n ≤ k) :
    Parted base places k t u :=
  { hParted with
    named := by
      intro l hl
      rcases hParted.named l hl with
        ⟨start, hStart, i, hi, hName⟩
      exact ⟨start, hStart, i, Nat.le_trans hi hMore,
        hName⟩ }

theorem same
    (hParted : Parted base places n t u) :
    t.SameIn (.apart places) u :=
  hParted.leftSame.symm.trans hParted.rightSame

/- The path of a new name is apart with its directory. -/
theorem covers_nameAt
    (hParted : Parted base places n t u)
    (hStart : start ∈ Workspace.starts)
    (hFresh : n < k)
    (hCovers :
      (View.apart places).Covers cwd
        (Path.ofText directory)) :
    (View.apart places).Covers cwd
      (Path.ofText
        (Workspace.nameAt directory start k)) := by
  intro m hWay
  rcases Workspace.mem_wayTo_nameAt hStart hWay with
    hFront | rfl
  · exact hCovers m hFront
  · intro p hp hAbove
    rcases List.prefix_concat_iff.mp hAbove with rfl | hFront
    · rcases hParted.named _ hp with
        ⟨other, hOther, i, hi, hName⟩
      rw [List.getLast?_concat, Option.some.injEq] at hName
      have hSame :=
        Workspace.number_unique hName
      omega
    · exact hCovers.destination p hp hFront

/- Making a new workspace comes to the same in both trees. -/
theorem match_makeDirectory
    (hParted : Parted base places n t u)
    (hStart : start ∈ Workspace.starts)
    (hFresh : n < k)
    (hCovers :
      (View.apart places).Covers cwd
        (Path.ofText directory))
    (mode : Nat) :
    Match (fun _ _ => True)
      (t.makeDirectory cwd mode
        (Workspace.nameAt directory start k))
      (u.makeDirectory cwd mode
        (Workspace.nameAt directory start k)) := by
  have hMade :=
    hParted.same.makeDirectory
      (hParted.covers_nameAt hStart hFresh hCovers) mode
  exact hMade.mono (fun _ _ _ => trivial)

end Parted

------------------------------------------------------------
-- Work In A Workspace
------------------------------------------------------------

/-
  Two trees in which the same workspace is being worked in:
  outside it they are as they were, and they agree on it and
  on the way to it.
-/
structure Working
    (cwd : Location)
    (ws : Path)
    (l : Location)
    (t₀ u₀ t u : Tree) : Prop where
  left : t.Hosts cwd ws.text l
  right : u.Hosts cwd ws.text l
  leftSame : t₀.SameOutside l t
  rightSame : u₀.SameOutside l u
  alike : t.SameIn (.around cwd ws) u

variable {ws : Path}

/- Work starts when the workspace has been made in both. -/
theorem Parted.working
    {mode : Nat}
    (hParted : Parted base places n t u)
    (hNormal : ws.IsNormal)
    (hCovers : (View.apart places).Covers cwd ws)
    (hPlace : t.HasPlace cwd ws.text l)
    (hTwin : u.HasPlace cwd ws.text l) :
    Working cwd ws l t u
      (t.put l (.directory mode))
      (u.put l (.directory mode)) := by
  have hBelow := Tree.ne_nil_of_at?_eq_none hPlace.free
  have hHosts :=
    hPlace.hosts_put hParted.left mode
  have hTwinHosts :=
    hTwin.hosts_put hParted.right mode
  have hHere : destination cwd ws = l := by
    have hDestination := hHosts.destination_eq
    rw [Path.ofText_text hNormal] at hDestination
    exact hDestination
  refine ⟨hHosts, hTwinHosts, ?_, ?_, ?_⟩
  · exact Tree.sameOutside_of_cut_eq hBelow
      (Tree.cut_put List.prefix_rfl).symm
  · exact Tree.sameOutside_of_cut_eq hBelow
      (Tree.cut_put List.prefix_rfl).symm
  · intro m hSees
    rw [Tree.at?_put hBelow, Tree.at?_put hBelow]
    by_cases hSame : m = l
    · rw [if_pos hSame, if_pos hSame]
    · rw [if_neg hSame, if_neg hSame]
      rcases hSees with ⟨v, hWay, hAbove⟩ | hInside
      · apply hParted.same m
        intro p hp hOver
        exact hCovers v hWay p hp (hOver.trans hAbove)
      · rw [hHere] at hInside
        rw [hParted.left.at?_eq_none_of_prefix hPlace.free
            hInside,
          hParted.right.at?_eq_none_of_prefix hTwin.free
            hInside]

namespace Working

variable {t₀ u₀ : Tree}

/- A process that keeps to the workspace works in it. -/
theorem leaveFiles
    {argv : List String}
    {b : Behaviour}
    (hWorking : Working cwd ws l t₀ u₀ t u)
    (hKeeps : Tool.KeepsTo cwd ws argv b) :
    Working cwd ws l t₀ u₀
      (Tool.leaveFiles argv b cwd t)
      (Tool.leaveFiles argv b cwd u) := by
  have hLeft := hKeeps.stays l t hWorking.left
  have hRight := hKeeps.stays l u hWorking.right
  refine ⟨?_, ?_, ?_, ?_, ?_⟩
  · exact hWorking.left.next
      (Tool.wellFormed_leaveFiles argv b cwd
        hWorking.left.wellFormed) hLeft
  · exact hWorking.right.next
      (Tool.wellFormed_leaveFiles argv b cwd
        hWorking.right.wellFormed) hRight
  · intro m hm
    exact (hWorking.leftSame m hm).trans (hLeft m hm)
  · intro m hm
    exact (hWorking.rightSame m hm).trans (hRight m hm)
  · exact hKeeps.alike l t u hWorking.left hWorking.right
      hWorking.alike

/- Files of the workspace read the same in both. -/
theorem read_child
    {name : String}
    (hWorking : Working cwd ws l t₀ u₀ t u)
    (hNormal : ws.IsNormal)
    (hName : Path.IsPart name)
    (hUp : name ≠ "..") :
    t.read cwd (ws.child name).text =
      u.read cwd (ws.child name).text := by
  apply hWorking.alike.read_eq
  exact (View.covers_around cwd ws).leadsInto
    (fun m hBelow => .inr hBelow)
    (Tool.leadsInto_child hNormal hName hUp)

end Working

------------------------------------------------------------
-- After The Work
------------------------------------------------------------

/- On the way to what can be made there are directories. -/
theorem Tree.hasDirectory_of_walk
    {m here : Location}
    {parts : List String}
    {name : String}
    (hWalk : t.walk here (parts ++ [name]) = .ok l)
    (hWay : m ∈ way here parts) :
    t.HasDirectory m := by
  induction parts generalizing here with
  | nil =>
      rw [List.mem_singleton.mp hWay]
      simp only [List.nil_append, Tree.walk] at hWalk
      split at hWalk
      · cases hWalk
      · exact Tree.hasDirectory_of_check ‹_›
  | cons p ps ih =>
      simp only [List.cons_append, Tree.walk] at hWalk
      split at hWalk
      · cases hWalk
      · rcases List.mem_cons.mp hWay with rfl | hLater
        · exact Tree.hasDirectory_of_check ‹_›
        · unfold descend at hLater
          split at hWalk
          · rw [if_pos ‹_›] at hLater
            exact ih hWalk hLater
          · split at hWalk
            · cases hWalk
            · rw [if_neg ‹_›] at hLater
              exact ih hWalk hLater

/- A place is apart from the way to its directory. -/
theorem Tree.HasPlace.covers_directory
    (hPlace :
      t.HasPlace cwd
        (Path.ofText
          (Workspace.nameAt directory start k)).text l)
    (hTree : t.WellFormed)
    (hStart : start ∈ Workspace.starts) :
    ∀ m ∈ wayTo cwd (Path.ofText directory), ¬ l <+: m := by
  intro m hWay hAbove
  have hWalk :=
    (Tree.locate_eq_ok_iff.mp hPlace.located).2.2
  rw [Path.ofText_text (Path.isNormal_ofText _),
    Workspace.ofText_nameAt k hStart] at hWalk
  have hDirectory := Tree.hasDirectory_of_walk hWalk hWay
  exact hDirectory.at?_ne_none
    (hTree.at?_eq_none_of_prefix hPlace.free hAbove)

theorem Tree.HasPlace.eq_nameAt
    (hPlace :
      t.HasPlace cwd
        (Path.ofText
          (Workspace.nameAt directory start k)).text l)
    (hStart : start ∈ Workspace.starts) :
    l =
      destination cwd (Path.ofText directory) ++
        [start ++ Workspace.uniquePart k] := by
  have hHere := Tree.locate_eq_ok hPlace.located
  rw [Path.ofText_text (Path.isNormal_ofText _),
    Workspace.destination_nameAt k hStart] at hHere
  exact hHere

/- Apart from a workspace, another one is there as a whole. -/
theorem Tree.HasPlace.covers_other
    {other : String}
    (hPlace :
      t.HasPlace cwd
        (Path.ofText
          (Workspace.nameAt directory start k)).text l)
    (hTree : t.WellFormed)
    (hStart : start ∈ Workspace.starts)
    (hOther : other ∈ Workspace.starts)
    (hDiffer :
      start ++ Workspace.uniquePart k ≠
        other ++ Workspace.uniquePart n) :
    let ws :=
      Path.ofText (Workspace.nameAt directory other n)
    (View.apart [l]).Covers cwd ws ∧
      ∀ m, destination cwd ws <+: m →
        (View.apart [l]).sees m := by
  intro ws
  have hFront := hPlace.covers_directory hTree hStart
  have hHere := hPlace.eq_nameAt hStart
  have hThere :
      destination cwd ws =
        destination cwd (Path.ofText directory) ++
          [other ++ Workspace.uniquePart n] :=
    Workspace.destination_nameAt n hOther
  have hApart : ¬ l <+: destination cwd ws := by
    rw [hThere, List.prefix_concat_iff]
    rintro (hSame | hAbove)
    · rw [hHere, List.append_cancel_left_eq,
        List.cons.injEq] at hSame
      exact hDiffer hSame.1
    · exact hFront _ (destination_mem_wayTo cwd _) hAbove
  refine ⟨?_, ?_⟩
  · intro m hWay
    simp only [View.apart, List.mem_singleton, forall_eq]
    rcases Workspace.mem_wayTo_nameAt hOther hWay with
      hBefore | rfl
    · exact hFront m hBefore
    · rw [hThere] at hApart
      exact hApart
  · intro m hBelow
    simp only [View.apart, List.mem_singleton, forall_eq]
    intro hAbove
    apply hApart
    refine List.prefix_of_prefix_length_le hAbove hBelow ?_
    rw [hHere, hThere, List.length_append,
      List.length_append]
    exact Nat.le_refl _

/-
  After the work the workspace may be left in either tree;
  then it is one more place from which they are apart.
-/
theorem Parted.after
    {t' u' : Tree}
    (hParted : Parted base places n t u)
    (hStart : start ∈ Workspace.starts)
    (hFresh : n < k)
    (hCovers :
      (View.apart places).Covers cwd
        (Path.ofText directory))
    (hPlace :
      t.HasPlace cwd
        (Path.ofText
          (Workspace.nameAt directory start k)).text l)
    (hLeft : t'.WellFormed)
    (hRight : u'.WellFormed)
    (hLeftSame : t.SameOutside l t')
    (hRightSame : u.SameOutside l u') :
    ∃ places',
      Parted base places' k t' u' ∧
        (View.apart places').Covers cwd
          (Path.ofText directory) := by
  have hApart :=
    (hParted.covers_nameAt hStart hFresh hCovers).destination
  have hHere := hPlace.eq_nameAt hStart
  rw [Workspace.destination_nameAt k hStart,
    ← hHere] at hApart
  have hBaseFree : base.at? l = none := by
    rw [hParted.leftSame l hApart]
    exact hPlace.free
  have hTwinFree : u.at? l = none := by
    rw [← hParted.rightSame l hApart]
    exact hBaseFree
  -- What was left before cannot lie in the new workspace.
  have hOutside : ∀ p ∈ places, ¬ l <+: p := by
    intro p hp hAbove
    rcases hParted.there p hp with hThere | hThere
    · exact hThere (hParted.left.at?_eq_none_of_prefix
        hPlace.free hAbove)
    · exact hThere (hParted.right.at?_eq_none_of_prefix
        hTwinFree hAbove)
  have hThere :
      ∀ p ∈ places, t'.at? p ≠ none ∨ u'.at? p ≠ none := by
    intro p hp
    have hOther :=
      Tree.isPrefixOf_eq_false_iff.mpr (hOutside p hp)
    rw [← hLeftSame p hOther, ← hRightSame p hOther]
    exact hParted.there p hp
  have hNamed := (hParted.mono (Nat.le_of_lt hFresh)).named
  by_cases hGone : t'.at? l = none ∧ u'.at? l = none
  · have hSame :
        ∀ v v' : Tree,
          base.SameIn (.apart places) v →
          v.SameOutside l v' →
          v'.WellFormed →
          v'.at? l = none →
          base.SameIn (.apart places) v' := by
      intro v v' hBase hKept hTree hFree m hSees
      by_cases hAbove : l <+: m
      · rw [hTree.at?_eq_none_of_prefix hFree hAbove,
          hParted.wellFormed.at?_eq_none_of_prefix hBaseFree
            hAbove]
      · rw [hBase m hSees,
          hKept m (Tree.isPrefixOf_eq_false_iff.mpr hAbove)]
    exact
      ⟨places,
        { hParted with
          left := hLeft
          right := hRight
          leftSame :=
            hSame t t' hParted.leftSame hLeftSame hLeft
              hGone.1
          rightSame :=
            hSame u u' hParted.rightSame hRightSame hRight
              hGone.2
          there := hThere
          named := hNamed },
        hCovers⟩
  · have hSame :
        ∀ v v' : Tree,
          base.SameIn (.apart places) v →
          v.SameOutside l v' →
          base.SameIn (.apart (l :: places)) v' := by
      intro v v' hBase hKept m hSees
      simp only [View.apart, List.forall_mem_cons] at hSees
      rw [hBase m hSees.2,
        hKept m (Tree.isPrefixOf_eq_false_iff.mpr hSees.1)]
    have hName :
        l.getLast? =
          some (start ++ Workspace.uniquePart k) := by
      rw [hHere, List.getLast?_concat]
    refine ⟨l :: places,
      { wellFormed := hParted.wellFormed
        left := hLeft
        right := hRight
        leftSame := hSame t t' hParted.leftSame hLeftSame
        rightSame := hSame u u' hParted.rightSame hRightSame
        free :=
          List.forall_mem_cons.mpr ⟨hBaseFree, hParted.free⟩
        there := List.forall_mem_cons.mpr ⟨?_, hThere⟩
        named :=
          List.forall_mem_cons.mpr
            ⟨⟨start, hStart, k, Nat.le_refl k, hName⟩,
              hNamed⟩ }, ?_⟩
    · rcases not_and_or.mp hGone with hStays | hStays
      · exact .inl hStays
      · exact .inr hStays
    · intro m hWay
      exact List.forall_mem_cons.mpr
        ⟨hPlace.covers_directory hParted.left hStart m hWay,
          hCovers m hWay⟩

end Files

end LocalCert
