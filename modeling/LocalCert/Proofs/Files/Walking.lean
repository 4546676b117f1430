import LocalCert.Proofs.Files.Changes
import LocalCert.Proofs.Files.Paths

/-
  Walking down a file tree.  Where a walk ends is decided by
  the path text alone; the tree decides whether it gets
  there, and a tree with more in it lets every walk through
  that the smaller one lets through.

  Main declarations:
    * `Files.destination`
    * `Files.Tree.locate_eq_ok`
    * `Files.Tree.KeepsDirectories`
    * `Files.Tree.Extends`
    * `Files.Tree.HasPlace`
    * `Files.Tree.HasPlace.locate_extends`
-/

------------------------------------------------------------
-- Destinations
------------------------------------------------------------

namespace LocalCert

namespace Files

/- The location that parts lead to from another one. -/
def resolve
    (here : Location) : List String → Location
  | [] => here
  | p :: ps =>
      if p == ".." then
        resolve here.dropLast ps
      else
        resolve (here ++ [p]) ps

/- The location where a path starts. -/
def origin
    (cwd : Location)
    (path : Path) : Location :=
  if path.root == .relative then cwd else []

/- The location that a path leads to. -/
def destination
    (cwd : Location)
    (path : Path) : Location :=
  resolve (origin cwd path) path.parts

theorem resolve_append
    (here : Location)
    (front rest : List String) :
    resolve here (front ++ rest) =
      resolve (resolve here front) rest := by
  induction front generalizing here with
  | nil => rfl
  | cons p ps ih =>
      simp only [List.cons_append, resolve]
      split
      · exact ih _
      · exact ih _

/- Parts without double dots lead straight down. -/
theorem resolve_of_not_mem
    {here : Location}
    {parts : List String}
    (hPlain : ".." ∉ parts) :
    resolve here parts = here ++ parts := by
  induction parts generalizing here with
  | nil => simp [resolve]
  | cons p ps ih =>
      simp only [List.mem_cons, not_or] at hPlain
      have hPart : (p == "..") = false := by
        simpa using Ne.symm hPlain.1
      simp [resolve, hPart, ih hPlain.2]

/- More parts lead on from where the path leads. -/
theorem destination_append
    (cwd : Location)
    (p : Path)
    (parts : List String) :
    destination cwd ⟨p.root, p.parts ++ parts⟩ =
      resolve (destination cwd p) parts :=
  resolve_append _ _ _

/- A name in a directory leads one step down from it. -/
theorem destination_child
    (cwd : Location)
    (dir : Path)
    {name : String}
    (hUp : name ≠ "..") :
    destination cwd (dir.child name) =
      destination cwd dir ++ [name] := by
  rw [Path.child, destination_append, resolve_of_not_mem]
  simpa using Ne.symm hUp

/- And so does the text of its path. -/
theorem destination_child_text
    (cwd : Location)
    {dir : Path}
    {name : String}
    (hNormal : dir.IsNormal)
    (hName : Path.IsPart name)
    (hUp : name ≠ "..") :
    destination cwd (Path.ofText (dir.child name).text) =
      destination cwd dir ++ [name] := by
  rw [Path.ofText_text (hNormal.child hName),
    destination_child cwd dir hUp]

namespace Tree

variable {t u : Tree}
variable {cwd l m : Location}
variable {text : String}

/- A walk that ends, ends where its parts lead to. -/
theorem walk_eq_ok
    {here : Location}
    {parts : List String}
    (hWalk : t.walk here parts = .ok l) :
    l = resolve here parts := by
  induction parts generalizing here with
  | nil =>
      simp only [walk, Except.ok.injEq] at hWalk
      exact hWalk.symm
  | cons p ps ih =>
      simp only [walk] at hWalk
      split at hWalk
      · cases hWalk
      · split at hWalk
        · rw [resolve, if_pos ‹_›]
          exact ih hWalk
        · split at hWalk
          · cases hWalk
          · rw [resolve, if_neg ‹_›]
            exact ih hWalk

/- What a path text leads to, if the tree lets it. -/
theorem locate_eq_ok_iff :
    t.locate cwd text = .ok l ↔
      text ≠ "" ∧ byteLength text < pathBytesLimit ∧
        t.walk (origin cwd (Path.ofText text))
          (Path.ofText text).parts = .ok l := by
  unfold locate origin
  by_cases hEmpty : text = ""
  · simp [hEmpty]
  · by_cases hLong : pathBytesLimit ≤ byteLength text
    · simp [hEmpty, hLong, Nat.not_lt.mpr hLong]
    · simp [hEmpty, hLong, Nat.lt_of_not_le hLong]

/- A path text leads to its destination or nowhere. -/
theorem locate_eq_ok
    (hLocate : t.locate cwd text = .ok l) :
    l = destination cwd (Path.ofText text) :=
  walk_eq_ok (locate_eq_ok_iff.mp hLocate).2.2

/- A path leads where the text leads that it was read from. -/
theorem locate_text_ofText
    (hLocate : t.locate cwd text = .ok l) :
    t.locate cwd (Path.ofText text).text = .ok l := by
  rcases locate_eq_ok_iff.mp hLocate with
    ⟨hSome, hShort, hWalk⟩
  have hNormal := Path.isNormal_ofText text
  refine locate_eq_ok_iff.mpr ⟨?_, ?_, ?_⟩
  · exact Path.text_ne_empty hNormal
  · have hLength := Path.byteLength_text_le hSome
    omega
  · rw [Path.ofText_text hNormal]
    exact hWalk

------------------------------------------------------------
-- Trees With More In Them
------------------------------------------------------------

/- Whether a tree has the directories of another one. -/
def KeepsDirectories
    (t u : Tree) : Prop :=
  ∀ m mode,
    t.at? m = some (.directory mode) →
    u.at? m = some (.directory mode)

/- Whoever may use a directory may use it in such a tree. -/
theorem KeepsDirectories.check
    {p : Permission}
    (hKeeps : t.KeepsDirectories u)
    (hCheck : t.check p m = .ok ()) :
    u.check p m = .ok () := by
  unfold Tree.check at hCheck ⊢
  split at hCheck
  · cases hCheck
  · cases hCheck
  · next mode hThere =>
      rw [hKeeps m mode hThere]
      exact hCheck

theorem KeepsDirectories.checkParent
    (hKeeps : t.KeepsDirectories u)
    (hParent : t.checkParent m = .ok ()) :
    u.checkParent m = .ok () := by
  unfold Tree.checkParent at hParent ⊢
  split at hParent
  · cases hParent
  · rw [hKeeps.check ‹_›]
    exact hKeeps.check hParent

/- A walk goes through in a tree with these directories. -/
theorem KeepsDirectories.walk
    {here : Location}
    {parts : List String}
    (hKeeps : t.KeepsDirectories u)
    (hWalk : t.walk here parts = .ok l) :
    u.walk here parts = .ok l := by
  induction parts generalizing here with
  | nil => exact hWalk
  | cons p ps ih =>
      simp only [Tree.walk] at hWalk ⊢
      cases hCheck : t.check .enter here with
      | error r =>
          rw [hCheck] at hWalk
          cases hWalk
      | ok v =>
          rw [hCheck] at hWalk
          rw [hKeeps.check hCheck]
          simp only at hWalk ⊢
          split at hWalk
          · rw [if_pos ‹_›]
            exact ih hWalk
          · split at hWalk
            · cases hWalk
            · rw [if_neg ‹_›, if_neg ‹_›]
              exact ih hWalk

theorem KeepsDirectories.locate
    (hKeeps : t.KeepsDirectories u)
    (hLocate : t.locate cwd text = .ok l) :
    u.locate cwd text = .ok l := by
  rcases locate_eq_ok_iff.mp hLocate with
    ⟨hSome, hShort, hWalk⟩
  exact locate_eq_ok_iff.mpr
    ⟨hSome, hShort, hKeeps.walk hWalk⟩

/- Whether a tree has everything that another one has. -/
def Extends
    (t u : Tree) : Prop :=
  ∀ m, t.at? m ≠ none → u.at? m = t.at? m

theorem Extends.keepsDirectories
    (hMore : t.Extends u) :
    t.KeepsDirectories u := by
  intro m mode hThere
  rw [hMore m (by simp [hThere]), hThere]

theorem Extends.checkParent
    (hMore : t.Extends u)
    (hParent : t.checkParent m = .ok ()) :
    u.checkParent m = .ok () :=
  hMore.keepsDirectories.checkParent hParent

theorem Extends.locate
    (hMore : t.Extends u)
    (hLocate : t.locate cwd text = .ok l) :
    u.locate cwd text = .ok l :=
  hMore.keepsDirectories.locate hLocate

------------------------------------------------------------
-- Places For Something New
------------------------------------------------------------

/-
  Whether a path text leads to a free location in which
  something new may be made.
-/
structure HasPlace
    (t : Tree)
    (cwd : Location)
    (text : String)
    (l : Location) : Prop where
  located : t.locate cwd text = .ok l
  free : t.at? l = none
  allowed : t.checkParent l = .ok ()

/- A place by the text is one by the path it reads as. -/
theorem HasPlace.ofText
    (hPlace : t.HasPlace cwd text l) :
    t.HasPlace cwd (Path.ofText text).text l where
  located := locate_text_ofText hPlace.located
  free := hPlace.free
  allowed := hPlace.allowed

/-
  A tree that is the same after a cut at a free location has
  everything that the other one has.
-/
theorem WellFormed.extends_of_cut_eq
    (hTree : t.WellFormed)
    (hFree : t.at? l = none)
    (hCut : u.cut l = t) :
    t.Extends u := by
  intro m hThere
  have hOutside : ¬ l <+: m := by
    intro hAbove
    exact hThere (hTree.at?_eq_none_of_prefix hFree hAbove)
  have hBelow := ne_nil_of_at?_eq_none hFree
  refine at?_eq_of_cut_eq hBelow ?_ hOutside
  rw [hCut, hTree.cut_eq_self hFree]

end Tree

end Files

end LocalCert
