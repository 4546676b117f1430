import LocalCert.Proofs.Files.Views

/-
  What writing makes of a file tree, location by location:
  a written file holds what was written, directories come up
  where nothing was, and all else stays as it is.

  Main declarations:
    * `Files.Tree.GrowsAt`
    * `Files.Tree.makeUpwards_growsAt`
    * `Files.Tree.Finds`
    * `Files.Tree.Wrote`
    * `Files.Tree.wrote_writeFile`
-/

------------------------------------------------------------
-- New Directories
------------------------------------------------------------

namespace LocalCert

namespace Files

namespace Tree

/-
  Whether all that is new in a tree are directories, at
  locations of some sort at which nothing was.
-/
def GrowsAt
    (P : Location → Prop)
    (t u : Tree) : Prop :=
  ∀ l,
    u.at? l = t.at? l ∨
      t.at? l = none ∧ P l ∧
        u.at? l = some (.directory directoryMode)

instance
    (P : Location → Prop) :
    IsPreorder Tree (GrowsAt P) where
  refl _ _ := .inl rfl
  trans t u v hFirst hNext := by
    intro l
    rcases hNext l with hSame | ⟨hFree, hHere, hNew⟩
    · rw [hSame]
      exact hFirst l
    · rcases hFirst l with hSame | ⟨_, _, hThere⟩
      · rw [hSame] at hFree
        exact .inr ⟨hFree, hHere, hNew⟩
      · rw [hThere] at hFree
        cases hFree

variable {t u : Tree}
variable {P : Location → Prop}
variable {cwd l m : Location}
variable {text : String}
variable {mode : Nat}

theorem makeDirectory_growsAt
    (hHere : P (destination cwd (Path.ofText text)))
    (hMake :
      t.makeDirectory cwd directoryMode text = .ok u) :
    GrowsAt P t u := by
  rcases makeDirectory_eq_ok_iff.mp hMake with
    ⟨l, hPlace, rfl⟩
  rw [← locate_eq_ok hPlace.located] at hHere
  have hBelow := ne_nil_of_at?_eq_none hPlace.free
  intro m
  rw [at?_put hBelow]
  by_cases hSame : m = l
  · subst hSame
    exact .inr ⟨hPlace.free, hHere, if_pos rfl⟩
  · exact .inl (if_neg hSame)

/- The directories that are missing above a path. -/
theorem makeUpwards_growsAt
    {G : Path → Prop}
    {path : Path}
    (hText :
      ∀ p, G p → P (destination cwd (Path.ofText p.text)))
    (hParent : ∀ p, G p → G p.parent)
    (bound : Nat)
    (hPath : G path) :
    GrowsAt P t (t.makeUpwards bound cwd path).2 := by
  refine makeUpwards_keeps (G := G) ?_ ?_ bound hPath
  · intro p v u hp hMake
    exact makeDirectory_growsAt (hText p hp) hMake
  · intro p hp _
    exact hParent p hp

------------------------------------------------------------
-- Written Files
------------------------------------------------------------

/-
  Whether a path text leads to a location that a file has or
  may have.
-/
structure Finds
    (t : Tree)
    (cwd : Location)
    (text : String)
    (l : Location) : Prop where
  located : t.locate cwd text = .ok l
  noDirectory : ∀ mode, t.at? l ≠ some (.directory mode)

/- The mode of what is at a location, or of a new file. -/
def modeAt
    (t : Tree)
    (l : Location)
    (new : Nat) : Nat :=
  ((t.at? l).map Node.mode).getD new

/-
  A file that is opened to be written is empty at first; it
  keeps its mode if it was there before.
-/
theorem openForWriting_eq_put
    (hOpen : t.openForWriting cwd mode text = .ok (l, u)) :
    t.Finds cwd text l ∧ l ≠ [] ∧
      u = t.put l (.file (t.modeAt l mode) []) := by
  unfold openForWriting at hOpen
  cases hLocate : t.locate cwd text with
  | error r =>
      rw [hLocate] at hOpen
      cases hOpen
  | ok k =>
      rw [hLocate] at hOpen
      simp only [bind, Except.bind, pure,
        Except.pure] at hOpen
      split at hOpen
      · cases hOpen
      · next old bytes hOld =>
          split at hOpen
          · cases hOpen
            refine ⟨⟨hLocate, ?_⟩,
              ne_nil_of_at?_eq_file hOld, ?_⟩
            · simp [hOld]
            · simp [modeAt, hOld, Node.mode]
          · cases hOpen
      · next hFree =>
          cases hParent : t.checkParent k with
          | error r =>
              rw [hParent] at hOpen
              cases hOpen
          | ok v =>
              rw [hParent] at hOpen
              cases hOpen
              refine ⟨⟨hLocate, ?_⟩,
                ne_nil_of_at?_eq_none hFree, ?_⟩
              · simp [hFree]
              · simp [modeAt, hFree]

/- Whether a tree is another one with a file written. -/
def Wrote
    (l : Location)
    (mode : Nat)
    (bytes : List UInt8)
    (t u : Tree) : Prop :=
  ∀ m,
    u.at? m =
      if m = l then some (.file mode bytes) else t.at? m

theorem Wrote.here
    {bytes : List UInt8}
    (hWrote : Wrote l mode bytes t u) :
    u.at? l = some (.file mode bytes) :=
  (hWrote l).trans (if_pos rfl)

theorem Wrote.elsewhere
    {bytes : List UInt8}
    (hWrote : Wrote l mode bytes t u)
    (hOther : m ≠ l) :
    u.at? m = t.at? m :=
  (hWrote m).trans (if_neg hOther)

/- No directory is lost where a file is written. -/
theorem Wrote.keepsDirectories
    {bytes : List UInt8}
    (hWrote : Wrote l mode bytes t u)
    (hFinds : t.Finds cwd text l) :
    t.KeepsDirectories u := by
  intro m kept hThere
  have hOther : m ≠ l := by
    rintro rfl
    exact hFinds.noDirectory kept hThere
  rw [hWrote.elsewhere hOther, hThere]

/- A file is filled in a tree that has it in addition. -/
theorem wrote_fill
    {old : List UInt8}
    (hBelow : l ≠ [])
    (hFile : u.at? l = some (.file mode old))
    (hRest : ∀ m, m ≠ l → u.at? m = t.at? m)
    (bytes : List UInt8) :
    Wrote l mode bytes t (u.fill l bytes) := by
  intro m
  rw [fill, hFile, at?_put hBelow]
  by_cases hSame : m = l
  · rw [if_pos hSame, if_pos hSame]
  · rw [if_neg hSame, if_neg hSame, hRest m hSame]

theorem wrote_writeFile
    {bytes : List UInt8}
    (hWrite : t.writeFile cwd text bytes = .ok u)
    (hPlace : destination cwd (Path.ofText text) = l) :
    t.Finds cwd text l ∧
      Wrote l (t.modeAt l fileMode) bytes t u := by
  unfold writeFile at hWrite
  cases hOpen : t.openForWriting cwd fileMode text with
  | error r =>
      rw [hOpen] at hWrite
      cases hWrite
  | ok opened =>
      rcases opened with ⟨k, v⟩
      rw [hOpen] at hWrite
      cases hWrite
      rcases openForWriting_eq_put hOpen with
        ⟨hFinds, hBelow, rfl⟩
      have hHere : k = l :=
        (locate_eq_ok hFinds.located).trans hPlace
      subst hHere
      have hFile :
          (t.put k (.file (t.modeAt k fileMode) [])).at? k =
            some (.file (t.modeAt k fileMode) []) := by
        rw [at?_put hBelow, if_pos rfl]
      refine ⟨hFinds, wrote_fill hBelow hFile ?_ bytes⟩
      intro m hOther
      exact at?_put_of_ne hOther

end Tree

end Files

end LocalCert
