import LocalCert.Files.Content
import LocalCert.Proofs.Files.Operations
import Mathlib.Data.List.Nodup

/-
  File trees that agree on a part of all locations.  What is
  done along paths that stay in the part gives the same in
  both trees, and leaves trees that agree on it again.

  Main declarations:
    * `Files.View`
    * `Files.View.Covers`
    * `Files.Tree.SameIn`
    * `Files.Tree.SameIn.place`
    * `Files.Tree.SameIn.read_eq`
    * `Files.Tree.SameIn.removeAll`
-/

------------------------------------------------------------
-- Ways
------------------------------------------------------------

namespace LocalCert

namespace Files

/- The location that one part leads to. -/
def descend
    (here : Location)
    (part : String) : Location :=
  if part == ".." then here.dropLast else here ++ [part]

/- The locations that parts lead through, with both ends. -/
def way
    (here : Location) : List String → List Location
  | [] => [here]
  | p :: ps => here :: way (descend here p) ps

theorem resolve_cons
    (here : Location)
    (part : String)
    (parts : List String) :
    resolve here (part :: parts) =
      resolve (descend here part) parts := by
  rw [resolve, descend]
  split <;> rfl

/- A way ends where its parts lead to. -/
theorem resolve_mem_way
    (here : Location)
    (parts : List String) :
    resolve here parts ∈ way here parts := by
  induction parts generalizing here with
  | nil => exact List.mem_singleton_self here
  | cons p ps ih =>
      rw [resolve_cons]
      exact List.mem_cons_of_mem _ (ih _)

/- A longer way goes on where the shorter one ends. -/
theorem mem_way_append
    {m here : Location}
    {front rest : List String} :
    m ∈ way here (front ++ rest) ↔
      m ∈ way here front ∨
        m ∈ way (resolve here front) rest := by
  induction front generalizing here with
  | nil =>
      cases rest with
      | nil => simp [way, resolve]
      | cons p ps => simp [way, resolve]
  | cons p ps ih =>
      rw [List.cons_append, way, List.mem_cons, ih, way,
        List.mem_cons, resolve_cons, or_assoc]

/- Without double dots a way leads straight down. -/
theorem prefix_of_mem_way
    {m here : Location}
    {parts : List String}
    (hPlain : ".." ∉ parts)
    (hWay : m ∈ way here parts) :
    here <+: m := by
  induction parts generalizing here with
  | nil =>
      simp only [List.mem_singleton.mp hWay, List.prefix_rfl]
  | cons p ps ih =>
      simp only [List.mem_cons, not_or] at hPlain
      have hDown : descend here p = here ++ [p] :=
        if_neg (by simpa using Ne.symm hPlain.1)
      rcases List.mem_cons.mp hWay with rfl | hLater
      · exact List.prefix_rfl
      · have hNext := ih hPlain.2 hLater
        rw [hDown] at hNext
        exact (List.prefix_append here [p]).trans hNext

/- The locations that a path leads through. -/
def wayTo
    (cwd : Location)
    (path : Path) : List Location :=
  way (origin cwd path) path.parts

theorem destination_mem_wayTo
    (cwd : Location)
    (path : Path) :
    destination cwd path ∈ wayTo cwd path :=
  resolve_mem_way _ _

------------------------------------------------------------
-- Views
------------------------------------------------------------

/- A part of all locations, with each the one above it. -/
structure View where
  sees : Location → Prop
  up : ∀ l, sees l → sees l.dropLast

namespace View

/- Whether a path leads through the part only. -/
def Covers
    (V : View)
    (cwd : Location)
    (path : Path) : Prop :=
  ∀ m ∈ wayTo cwd path, V.sees m

variable {V : View}
variable {cwd : Location}

theorem Covers.destination
    {path : Path}
    (hCovers : V.Covers cwd path) :
    V.sees (Files.destination cwd path) :=
  hCovers _ (destination_mem_wayTo cwd path)

/- With a path its parent is covered. -/
theorem Covers.parent
    {path : Path}
    (hCovers : V.Covers cwd path) :
    V.Covers cwd path.parent := by
  rcases path with ⟨start, parts⟩
  intro m hWay
  apply hCovers
  cases parts using List.reverseRecOn with
  | nil => exact hWay
  | append_singleton front name =>
      refine mem_way_append.mpr (.inl ?_)
      simpa [wayTo, origin, Path.parent] using hWay

/- Parts without double dots, below a place with all of it. -/
theorem Covers.below
    {path : Path}
    {parts : List String}
    (hCovers : V.Covers cwd path)
    (hBelow :
      ∀ m, Files.destination cwd path <+: m → V.sees m)
    (hPlain : ".." ∉ parts) :
    V.Covers cwd ⟨path.root, path.parts ++ parts⟩ := by
  intro m hWay
  rcases mem_way_append.mp hWay with hFront | hRest
  · exact hCovers m hFront
  · exact hBelow m (prefix_of_mem_way hPlain hRest)

end View

------------------------------------------------------------
-- Trees That Agree
------------------------------------------------------------

namespace Tree

variable {V : View}
variable {t u : Tree}
variable {cwd l m : Location}
variable {text : String}

/- Whether two trees agree wherever one looks. -/
def SameIn
    (V : View)
    (t u : Tree) : Prop :=
  ∀ m, V.sees m → t.at? m = u.at? m

/- A node put elsewhere changes nothing. -/
theorem at?_put_of_ne
    {node : Node}
    (hOther : m ≠ l) :
    (t.put l node).at? m = t.at? m := by
  by_cases hBelow : l = []
  · subst hBelow
    rw [at?_of_ne_nil hOther, at?_of_ne_nil hOther, put]
    split
    · have hKeeps :
          ((fun n : Location × Node => n.1 == m) ∘
              fun n => if n.1 == [] then ([], node) else n) =
            fun n => n.1 == m := by
        funext n
        by_cases hHere : n.1 = [] <;> simp [hHere]
      rw [List.find?_map, hKeeps, Option.map_map]
      cases hFind : t.nodes.find? (fun n => n.1 == m) with
      | none => rfl
      | some n =>
          have hHere : n.1 = m := by
            simpa using List.find?_some hFind
          simp [hHere, hOther]
    · simp [List.find?_append, hOther]
  · rw [at?_put hBelow, if_neg hOther]

/- Other permission bits change the one node only. -/
theorem at?_setMode
    (t : Tree)
    (l : Location)
    (mode : Nat)
    (m : Location) :
    (t.setMode l mode).at? m =
      if m = l ∧ l ≠ [] then
        (t.at? l).map (Node.withMode mode)
      else
        t.at? m := by
  unfold setMode
  cases hNode : t.at? l with
  | none =>
      by_cases hHere : m = l
      · simp [hHere, hNode]
      · simp [hHere]
  | some node =>
      by_cases hRoot : l = []
      · subst hRoot
        by_cases hHere : m = []
        · subst hHere
          simp only [ne_eq, not_true_eq_false, and_false,
            if_false]
          split <;> rfl
        · simp only [ne_eq, not_true_eq_false, and_false,
            if_false]
          split
          · exact at?_put_of_ne hHere
          · rfl
      · have hThere : t.occupied l = true := by
          rw [occupied_iff]
          by_contra hFree
          rw [(at?_eq_none_iff hRoot).mpr hFree] at hNode
          cases hNode
        simp [hThere, at?_put hRoot, hRoot]

namespace SameIn

theorem refl
    (t : Tree) :
    t.SameIn V t :=
  fun _ _ => rfl

theorem symm
    (hSame : t.SameIn V u) :
    u.SameIn V t :=
  fun m hSees => (hSame m hSees).symm

theorem trans
    {v : Tree}
    (hFirst : t.SameIn V u)
    (hNext : u.SameIn V v) :
    t.SameIn V v :=
  fun m hSees => (hFirst m hSees).trans (hNext m hSees)

------------------------------------------------------------
-- Nodes
------------------------------------------------------------

theorem put
    (hSame : t.SameIn V u)
    (l : Location)
    (node : Node) :
    (t.put l node).SameIn V (u.put l node) := by
  intro m hSees
  by_cases hHere : m = l
  · subst hHere
    by_cases hRoot : m = []
    · subst hRoot
      rfl
    · rw [at?_put hRoot, at?_put hRoot, if_pos rfl,
        if_pos rfl]
  · rw [at?_put_of_ne hHere, at?_put_of_ne hHere,
      hSame m hSees]

/- Leaving out the same locations. -/
theorem filter
    (hSame : t.SameIn V u)
    (keeps : Location → Bool) :
    (Tree.mk
        (t.nodes.filter (fun n => keeps n.1))).SameIn V
      (Tree.mk
        (u.nodes.filter (fun n => keeps n.1))) := by
  intro m hSees
  by_cases hRoot : m = []
  · subst hRoot
    rfl
  · rw [at?_filter keeps hRoot, at?_filter keeps hRoot,
      hSame m hSees]

theorem cut
    (hSame : t.SameIn V u)
    (l : Location) :
    (t.cut l).SameIn V (u.cut l) :=
  hSame.filter (fun m => !l.isPrefixOf m)

theorem cutBelow
    (hSame : t.SameIn V u)
    (l : Location) :
    (t.cutBelow l).SameIn V (u.cutBelow l) :=
  hSame.filter (fun m => m == l || !l.isPrefixOf m)

------------------------------------------------------------
-- Walking
------------------------------------------------------------

theorem check_eq
    (hSame : t.SameIn V u)
    (p : Permission)
    (hSees : V.sees l) :
    t.check p l = u.check p l := by
  unfold Tree.check
  rw [hSame l hSees]

theorem checkParent_eq
    (hSame : t.SameIn V u)
    (hSees : V.sees l) :
    t.checkParent l = u.checkParent l := by
  have hAbove := V.up l hSees
  rw [checkParent, checkParent, hSame.check_eq _ hAbove,
    hSame.check_eq _ hAbove]

theorem walk_eq
    {here : Location}
    {parts : List String}
    (hSame : t.SameIn V u)
    (hWay : ∀ m ∈ way here parts, V.sees m) :
    t.walk here parts = u.walk here parts := by
  induction parts generalizing here with
  | nil => rfl
  | cons p ps ih =>
      have hHere := hWay here List.mem_cons_self
      have hRest :
          t.walk (descend here p) ps =
            u.walk (descend here p) ps := by
        apply ih
        intro m hm
        exact hWay m (List.mem_cons_of_mem _ hm)
      simp only [walk, hSame.check_eq _ hHere]
      unfold descend at hRest
      split
      · rfl
      · by_cases hUp : p = ".."
        · simp only [hUp, beq_self_eq_true,
            if_true] at hRest ⊢
          exact hRest
        · have hDown : (p == "..") = false := by
            simpa using hUp
          simp only [hDown, Bool.false_eq_true,
            if_false] at hRest ⊢
          rw [hRest]

theorem locate_eq
    (hSame : t.SameIn V u)
    (hCovers : V.Covers cwd (Path.ofText text)) :
    t.locate cwd text = u.locate cwd text := by
  have hWalk := hSame.walk_eq hCovers
  unfold origin at hWalk
  rw [locate, locate, hWalk]

/- What a path leads to is seen. -/
theorem sees_of_locate
    (hCovers : V.Covers cwd (Path.ofText text))
    (hLocate : t.locate cwd text = .ok l) :
    V.sees l := by
  rw [locate_eq_ok hLocate]
  exact hCovers.destination

theorem isDirectoryAt_eq
    (hSame : t.SameIn V u)
    (hCovers : V.Covers cwd (Path.ofText text)) :
    t.isDirectoryAt cwd text = u.isDirectoryAt cwd text := by
  unfold isDirectoryAt
  rw [← hSame.locate_eq hCovers]
  cases hLocate : t.locate cwd text with
  | error r => rfl
  | ok l =>
      simp only [hSame l (sees_of_locate hCovers hLocate)]

------------------------------------------------------------
-- Making And Writing
------------------------------------------------------------

theorem makeDirectory
    (hSame : t.SameIn V u)
    (hCovers : V.Covers cwd (Path.ofText text))
    (mode : Nat) :
    Match (SameIn V)
      (t.makeDirectory cwd mode text)
      (u.makeDirectory cwd mode text) := by
  unfold Tree.makeDirectory
  rw [← hSame.locate_eq hCovers]
  cases hLocate : t.locate cwd text with
  | error r => rfl
  | ok l =>
      have hSees := sees_of_locate hCovers hLocate
      simp only [bind, Except.bind, hSame l hSees,
        hSame.checkParent_eq hSees]
      cases u.at? l with
      | some node => rfl
      | none =>
          cases u.checkParent l with
          | error r => rfl
          | ok _ => exact hSame.put l _

theorem openForWriting
    (hSame : t.SameIn V u)
    (hCovers : V.Covers cwd (Path.ofText text))
    (mode : Nat) :
    Match
      (fun p q : Location × Tree =>
        q.1 = p.1 ∧ V.sees p.1 ∧ p.2.SameIn V q.2)
      (t.openForWriting cwd mode text)
      (u.openForWriting cwd mode text) := by
  unfold Tree.openForWriting
  rw [← hSame.locate_eq hCovers]
  cases hLocate : t.locate cwd text with
  | error r => rfl
  | ok l =>
      have hSees := sees_of_locate hCovers hLocate
      simp only [bind, Except.bind, hSame l hSees,
        hSame.checkParent_eq hSees]
      cases u.at? l with
      | none =>
          cases u.checkParent l with
          | error r => rfl
          | ok _ => exact ⟨rfl, hSees, hSame.put l _⟩
      | some node =>
          cases node with
          | directory mode => rfl
          | file old bytes =>
              simp only
              split
              · exact ⟨rfl, hSees, hSame.put l _⟩
              · rfl

theorem setMode
    (hSame : t.SameIn V u)
    (hSees : V.sees l)
    (mode : Nat) :
    (t.setMode l mode).SameIn V (u.setMode l mode) := by
  intro m hHere
  rw [at?_setMode, at?_setMode, hSame l hSees,
    hSame m hHere]

theorem fill
    (hSame : t.SameIn V u)
    (hSees : V.sees l)
    (bytes : List UInt8) :
    (t.fill l bytes).SameIn V (u.fill l bytes) := by
  unfold Tree.fill
  rw [hSame l hSees]
  split
  · exact hSame.put l _
  · exact hSame

theorem writeFile
    (hSame : t.SameIn V u)
    (hCovers : V.Covers cwd (Path.ofText text))
    (bytes : List UInt8) :
    Match (SameIn V)
      (t.writeFile cwd text bytes)
      (u.writeFile cwd text bytes) := by
  refine (hSame.openForWriting hCovers fileMode).map ?_
  rintro ⟨l, v⟩ ⟨k, v'⟩ ⟨hHere, hSees, hLater⟩
  simp only at hHere hSees hLater
  rw [hHere]
  exact hLater.fill hSees bytes

theorem changeMode
    (hSame : t.SameIn V u)
    (hCovers : V.Covers cwd (Path.ofText text))
    (mode : Option Nat) :
    (t.changeMode cwd text mode).SameIn V
      (u.changeMode cwd text mode) := by
  unfold Tree.changeMode
  rw [← hSame.locate_eq hCovers]
  cases mode with
  | none => exact hSame
  | some mode =>
      cases hLocate : t.locate cwd text with
      | error r => exact hSame
      | ok l =>
          exact hSame.setMode
            (sees_of_locate hCovers hLocate) mode

theorem acceptDirectory_eq
    (hSame : t.SameIn V u)
    (hCovers : V.Covers cwd (Path.ofText text))
    (r : Refusal) :
    t.acceptDirectory cwd text r =
      u.acceptDirectory cwd text r := by
  rw [acceptDirectory, acceptDirectory,
    hSame.isDirectoryAt_eq hCovers]

/- Directories upwards, along a path that is covered. -/
theorem makeUpwards
    {path : Path}
    (bound : Nat)
    (hSame : t.SameIn V u)
    (hNormal : path.IsNormal)
    (hCovers : V.Covers cwd path) :
    (t.makeUpwards bound cwd path).1 =
        (u.makeUpwards bound cwd path).1 ∧
      (t.makeUpwards bound cwd path).2.SameIn V
        (u.makeUpwards bound cwd path).2 := by
  have hText :
      ∀ p : Path, p.IsNormal ∧ V.Covers cwd p →
        V.Covers cwd (Path.ofText p.text) := by
    rintro p ⟨hRead, hAll⟩
    rw [Path.ofText_text hRead]
    exact hAll
  refine makeUpwards_relates
    (G := fun p => p.IsNormal ∧ V.Covers cwd p)
    ?_ ?_ ?_ bound hSame ⟨hNormal, hCovers⟩
  · intro t u p hTrees hPath
    exact hTrees.makeDirectory (hText p hPath) directoryMode
  · intro t u p r hTrees hPath
    exact hTrees.acceptDirectory_eq (hText p hPath) r
  · rintro p ⟨hRead, hAll⟩
    exact ⟨hRead.parent, hAll.parent⟩

------------------------------------------------------------
-- Contents
------------------------------------------------------------

theorem place
    (hSame : t.SameIn V u)
    (hCovers : V.Covers cwd (Path.ofText text))
    (content : Content) :
    (t.place cwd text content).SameIn V
      (u.place cwd text content) := by
  unfold Tree.place
  cases content.body with
  | nothing => exact hSame
  | directory =>
      have hMade :=
        hSame.makeUpwards (Path.ofText text).parts.length
          (Path.isNormal_ofText text) hCovers
      simp only [makeDirectories]
      rcases hLeft : t.makeUpwards
          (Path.ofText text).parts.length cwd
          (Path.ofText text) with ⟨f, v⟩
      rcases hRight : u.makeUpwards
          (Path.ofText text).parts.length cwd
          (Path.ofText text) with ⟨g, v'⟩
      rw [hLeft, hRight] at hMade
      rcases hMade with ⟨hFault, hLater⟩
      simp only at hFault hLater
      simp only [hFault]
      cases g with
      | none => exact hLater.changeMode hCovers content.mode
      | some f => exact hLater
  | bytes bytes =>
      simp only
      split
      · exact hSame
      · rcases (hSame.writeFile hCovers bytes).cases with
          ⟨r, hWrite, hTwin⟩ | ⟨v, v', hWrite, hTwin, hLater⟩
        · rw [hWrite, hTwin]
          exact hSame
        · rw [hWrite, hTwin]
          exact hLater.changeMode hCovers content.mode

------------------------------------------------------------
-- Reading And Removing
------------------------------------------------------------

theorem read_eq
    (hSame : t.SameIn V u)
    (hCovers : V.Covers cwd (Path.ofText text)) :
    t.read cwd text = u.read cwd text := by
  unfold Tree.read
  rw [← hSame.locate_eq hCovers]
  cases hLocate : t.locate cwd text with
  | error r => rfl
  | ok l =>
      simp only [bind, Except.bind,
        hSame l (sees_of_locate hCovers hLocate)]

end SameIn

/- The nodes of a well-formed tree are what stands in it. -/
theorem WellFormed.mem_nodes_iff
    {n : Location × Node}
    (hTree : t.WellFormed) :
    n ∈ t.nodes ↔ n.1 ≠ [] ∧ t.at? n.1 = some n.2 := by
  constructor
  · intro hNode
    have hBelow :=
      (hTree.2 n.1 (List.mem_map_of_mem hNode)).1
    refine ⟨hBelow, ?_⟩
    rw [at?_of_ne_nil hBelow]
    cases hFind :
        t.nodes.find? (fun k => k.1 == n.1) with
    | none =>
        simp only [List.find?_eq_none, beq_iff_eq] at hFind
        exact absurd rfl (hFind n hNode)
    | some k =>
        have hSame : k.1 = n.1 := by
          simpa using List.find?_some hFind
        have hOnly : k = n :=
          List.inj_on_of_nodup_map hTree.1
            (List.mem_of_find?_eq_some hFind) hNode hSame
        rw [hOnly, Option.map_some]
  · rintro ⟨hBelow, hNode⟩
    rw [at?_of_ne_nil hBelow, Option.map_eq_some_iff] at hNode
    rcases hNode with ⟨k, hFind, hKind⟩
    have hSame : k.1 = n.1 := by
      simpa using List.find?_some hFind
    have hOnly : k = n := Prod.ext hSame hKind
    rw [← hOnly]
    exact List.mem_of_find?_eq_some hFind

/- What stands below a location in a well-formed tree. -/
theorem WellFormed.mem_below_iff
    {n : Location × Node}
    (hTree : t.WellFormed) :
    n ∈ t.below l ↔
      n.1 ≠ [] ∧ t.at? n.1 = some n.2 ∧ l <+: n.1 ∧
        n.1 ≠ l := by
  rw [below, List.mem_filter, hTree.mem_nodes_iff, and_assoc]
  simp

namespace SameIn

/- Whether something below a location resists removal. -/
theorem find?_resists_isSome
    (hSame : t.SameIn V u)
    (hTree : t.WellFormed)
    (hTwin : u.WellFormed)
    (hBelow : ∀ m, l <+: m → V.sees m) :
    ((t.below l).find? t.resists).isSome =
      ((u.below l).find? u.resists).isSome := by
  rw [List.isSome_find?, List.isSome_find?, Bool.eq_iff_iff,
    List.any_eq_true, List.any_eq_true]
  refine exists_congr ?_
  intro n
  rw [hTree.mem_below_iff, hTwin.mem_below_iff]
  by_cases hAbove : l <+: n.1
  · have hSees := hBelow n.1 hAbove
    rw [hSame n.1 hSees, resists, resists,
      hSame.checkParent_eq hSees]
  · simp [hAbove]

/-
  Removing what is seen with all below it.  The faults may
  name different nodes, for the order of nodes is not seen.
-/
theorem removeAll
    (hSame : t.SameIn V u)
    (hTree : t.WellFormed)
    (hTwin : u.WellFormed)
    (hCovers : V.Covers cwd (Path.ofText text))
    (hBelow :
      ∀ m, destination cwd (Path.ofText text) <+: m →
        V.sees m) :
    (t.removeAll cwd text).2.SameIn V
      (u.removeAll cwd text).2 := by
  unfold Tree.removeAll
  rw [← hSame.locate_eq hCovers]
  cases hLocate : t.locate cwd text with
  | error r => exact hSame
  | ok l =>
      rw [← locate_eq_ok hLocate] at hBelow
      have hHere := hBelow l List.prefix_rfl
      have hResists :=
        hSame.find?_resists_isSome hTree hTwin hBelow
      simp only [hSame l hHere, hSame.checkParent_eq hHere]
      split
      · exact hSame
      · split
        · exact hSame
        · split
          · exact hSame
          · cases hLeft : (t.below l).find? t.resists with
            | some n =>
                cases hRight :
                    (u.below l).find? u.resists with
                | some k => exact hSame
                | none =>
                    rw [hLeft, hRight] at hResists
                    cases hResists
            | none =>
                cases hRight :
                    (u.below l).find? u.resists with
                | some k =>
                    rw [hLeft, hRight] at hResists
                    cases hResists
                | none =>
                    cases u.checkParent l with
                    | error r => exact hSame.cutBelow l
                    | ok _ => exact hSame.cut l

end SameIn

end Tree

end Files

end LocalCert
