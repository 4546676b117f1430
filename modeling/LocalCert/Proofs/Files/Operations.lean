import LocalCert.Proofs.Files.Walking
import LocalCert.Proofs.Results

/-
  What each operation makes of a file tree, as changes at
  the locations that its path texts lead to.

  Main declarations:
    * `Files.Tree.makeDirectory_eq_ok_iff`
    * `Files.Tree.openForWriting_evolves`
    * `Files.Tree.makeUpwards_keeps`
    * `Files.Tree.makeUpwards_evolves`
    * `Files.Tree.makeUpwards_relates`
    * `Files.Tree.place_evolves`
    * `Files.Tree.removeAll_evolves`
    * `Files.Tree.placeAll_relates`
-/

------------------------------------------------------------
-- Single Operations
------------------------------------------------------------

namespace LocalCert

namespace Files

namespace Tree

variable {t u : Tree}
variable {P : Location → Prop}
variable {cwd l : Location}
variable {text : String}
variable {mode : Nat}

/- A place is where something new can be made. -/
theorem HasPlace.change
    (hPlace : t.HasPlace cwd text l)
    (node : Node) :
    Change l t (t.put l node) :=
  .make node hPlace.free
    (hasDirectory_of_checkParent hPlace.allowed)

/- A directory is made where there is a place for it. -/
theorem makeDirectory_eq_ok_iff :
    t.makeDirectory cwd mode text = .ok u ↔
      ∃ l, t.HasPlace cwd text l ∧
        u = t.put l (.directory mode) := by
  unfold makeDirectory
  constructor
  · intro hMake
    cases hLocate : t.locate cwd text with
    | error r =>
        rw [hLocate] at hMake
        cases hMake
    | ok l =>
        rw [hLocate] at hMake
        simp only [bind, Except.bind] at hMake
        split at hMake
        · cases hMake
        · cases hParent : t.checkParent l with
          | error r =>
              rw [hParent] at hMake
              cases hMake
          | ok v =>
              rw [hParent] at hMake
              cases hMake
              exact ⟨l, ⟨hLocate, ‹_›, hParent⟩, rfl⟩
  · rintro ⟨l, ⟨hLocate, hFree, hParent⟩, rfl⟩
    simp only [hLocate, hFree, hParent, bind, Except.bind,
      pure, Except.pure]

/- What stands in a place already is no new directory. -/
theorem makeDirectory_of_located
    (hLocate : t.locate cwd text = .ok l)
    (hParent : t.checkParent l = .ok ()) :
    t.makeDirectory cwd mode text ≠ .error .missing := by
  unfold makeDirectory
  simp only [hLocate, hParent, bind, Except.bind,
    pure, Except.pure]
  split <;> simp

theorem makeDirectory_evolves
    (hHere : P (destination cwd (Path.ofText text)))
    (hMake : t.makeDirectory cwd mode text = .ok u) :
    Evolves P t u := by
  rcases makeDirectory_eq_ok_iff.mp hMake with
    ⟨l, hPlace, rfl⟩
  rw [← locate_eq_ok hPlace.located] at hHere
  exact .single hHere (hPlace.change _)

/- An opened file is empty, and new or changed. -/
theorem openForWriting_eq_ok
    (hOpen : t.openForWriting cwd mode text = .ok (l, u)) :
    t.locate cwd text = .ok l ∧ Change l t u := by
  unfold openForWriting at hOpen
  cases hLocate : t.locate cwd text with
  | error r =>
      rw [hLocate] at hOpen
      cases hOpen
  | ok k =>
      rw [hLocate] at hOpen
      simp only [bind, Except.bind, pure,
        Except.pure] at hOpen
      split at hOpen
      · cases hOpen
      · next old bytes hOld =>
          split at hOpen
          · cases hOpen
            exact ⟨rfl,
              .alter _ _ (mem_locations_of_at?_eq_file hOld)
                hOld rfl⟩
          · cases hOpen
      · next hFree =>
          cases hParent : t.checkParent k with
          | error r =>
              rw [hParent] at hOpen
              cases hOpen
          | ok v =>
              rw [hParent] at hOpen
              cases hOpen
              exact ⟨rfl, .make _ hFree
                (hasDirectory_of_checkParent hParent)⟩

theorem openForWriting_evolves
    (hHere : P (destination cwd (Path.ofText text)))
    (hOpen : t.openForWriting cwd mode text = .ok (l, u)) :
    P l ∧ Evolves P t u := by
  rcases openForWriting_eq_ok hOpen with
    ⟨hLocate, hChange⟩
  rw [← locate_eq_ok hLocate] at hHere
  exact ⟨hHere, .single hHere hChange⟩

theorem setMode_evolves
    (hHere : P l) :
    Evolves P t (t.setMode l mode) := by
  unfold setMode
  split
  · next node hNode =>
      split
      · next hOccupied =>
          have hThere := occupied_iff.mp hOccupied
          refine .single hHere (.alter node _ hThere hNode ?_)
          cases node <;> rfl
      · exact .refl t
  · exact .refl t

theorem fill_evolves
    {bytes : List UInt8}
    (hHere : P l) :
    Evolves P t (t.fill l bytes) := by
  unfold fill
  split
  · next old content hOld =>
      exact .single hHere
        (.alter _ _ (mem_locations_of_at?_eq_file hOld)
          hOld rfl)
  · exact .refl t

theorem writeFile_evolves
    {content : List UInt8}
    (hHere : P (destination cwd (Path.ofText text)))
    (hWrite : t.writeFile cwd text content = .ok u) :
    Evolves P t u := by
  unfold writeFile at hWrite
  cases hOpen : t.openForWriting cwd fileMode text with
  | error r =>
      rw [hOpen] at hWrite
      cases hWrite
  | ok opened =>
      rcases opened with ⟨l, v⟩
      rw [hOpen] at hWrite
      cases hWrite
      rcases openForWriting_evolves hHere hOpen with
        ⟨hThere, hEvolves⟩
      exact hEvolves.trans (fill_evolves hThere)

theorem changeMode_evolves
    {mode : Option Nat}
    (hHere : P (destination cwd (Path.ofText text))) :
    Evolves P t (t.changeMode cwd text mode) := by
  unfold changeMode
  split
  · next mode l hLocate =>
      rw [← locate_eq_ok hLocate] at hHere
      exact setMode_evolves hHere
  · exact .refl t

/-
  The ways in which a removal at a location ends: there was
  nothing, or something resists, or it is cut.
-/
theorem removeAll_cases
    {l : Location}
    (hLocate : t.locate cwd text = .ok l) :
    (t.at? l = none ∧
      t.removeAll cwd text =
        (some (.ofRefusal .missing text), t)) ∨
    (∃ f u,
      t.removeAll cwd text = (some f, u) ∧
        (f.category ≠ .missing ∨
          t.checkParent l ≠ .ok ())) ∨
    (t.HasDirectory l ∧
      t.removeAll cwd text = (none, t.cut l)) := by
  have hDenied :
      Fault.categoryOfCode Refusal.denied.code ≠
        .missing := by
    decide
  have hNotDirectory :
      Fault.categoryOfCode Refusal.notDirectory.code ≠
        .missing := by
    decide
  cases hNode : t.at? l with
  | none =>
      refine .inl ⟨rfl, ?_⟩
      simp only [removeAll, hLocate, hNode]
  | some node =>
      right
      simp only [removeAll, hLocate, hNode]
      split
      · exact .inl ⟨_, _, rfl, .inl hDenied⟩
      · split
        · exact .inl ⟨_, _, rfl, .inl hNotDirectory⟩
        · next hKind =>
            have hDirectory : t.HasDirectory l := by
              simpa [HasDirectory, hNode] using hKind
            split
            · exact .inl ⟨_, _, rfl, .inl hDenied⟩
            · cases hParent : t.checkParent l with
              | error r =>
                  exact .inl ⟨_, _, rfl, .inr (by simp)⟩
              | ok _ => exact .inr ⟨hDirectory, rfl⟩

/- A removal without a fault cuts what its path leads to. -/
theorem removeAll_of_no_fault
    (hNone : (t.removeAll cwd text).1 = none) :
    ∃ l,
      t.locate cwd text = .ok l ∧ t.HasDirectory l ∧
        (t.removeAll cwd text).2 = t.cut l := by
  cases hLocate : t.locate cwd text with
  | error r =>
      simp only [removeAll, hLocate] at hNone
      cases hNone
  | ok l =>
      refine ⟨l, rfl, ?_⟩
      rcases removeAll_cases hLocate with
        ⟨_, hGone⟩ | ⟨f, u, hResists, _⟩ | ⟨hThere, hCut⟩
      · rw [hGone] at hNone
        cases hNone
      · rw [hResists] at hNone
        cases hNone
      · rw [hCut]
        exact ⟨hThere, rfl⟩

/- A removal takes away what stands at its path, or less. -/
theorem removeAll_evolves
    (hHere : P (destination cwd (Path.ofText text))) :
    Evolves P t (t.removeAll cwd text).2 := by
  unfold removeAll
  split
  · exact .refl t
  · next l hLocate =>
      rw [← locate_eq_ok hLocate] at hHere
      split
      · exact .refl t
      · split
        · exact .refl t
        · split
          · exact .refl t
          · split
            · exact .refl t
            · split
              · exact .single hHere .clear
              · exact .single hHere .cut

------------------------------------------------------------
-- Directories With Those Above Them
------------------------------------------------------------

/- What making each directory keeps, making all of them keeps. -/
theorem makeUpwards_keeps
    {R : Tree → Tree → Prop}
    [IsPreorder Tree R]
    {G : Path → Prop}
    (hMake :
      ∀ p v u, G p →
        v.makeDirectory cwd directoryMode p.text = .ok u →
        R v u)
    (hParent :
      ∀ p, G p →
        t.makeDirectory cwd directoryMode p.text =
          .error .missing →
        G p.parent)
    (bound : Nat)
    {path : Path}
    (hPath : G path) :
    R t (t.makeUpwards bound cwd path).2 := by
  induction bound generalizing path with
  | zero =>
      unfold makeUpwards
      split
      · next hMade => exact hMake path _ _ hPath hMade
      · exact refl_of R t
      · exact refl_of R t
  | succ bound ih =>
      unfold makeUpwards
      split
      · next hMade => exact hMake path _ _ hPath hMade
      · next hMissing =>
          have hAbove := ih (hParent path hPath hMissing)
          simp only
          split
          · next hUp =>
              rw [hUp] at hAbove
              exact hAbove
          · next hUp =>
              rw [hUp] at hAbove
              split
              · next hMade =>
                  exact trans_of R hAbove
                    (hMake path _ _ hPath hMade)
              · exact hAbove
      · exact refl_of R t

/-
  Directories are made along a path only where it leads, if
  the way up stops before it leaves the good paths.
-/
theorem makeUpwards_evolves
    {G : Path → Prop}
    (hText :
      ∀ p, G p → P (destination cwd (Path.ofText p.text)))
    (hParent :
      ∀ p, G p →
        t.makeDirectory cwd directoryMode p.text =
          .error .missing →
        G p.parent)
    (bound : Nat)
    {path : Path}
    (hPath : G path) :
    Evolves P t (t.makeUpwards bound cwd path).2 := by
  refine makeUpwards_keeps ?_ hParent bound hPath
  intro p v u hp hMade
  exact makeDirectory_evolves (hText p hp) hMade

/-
  Trees that are related stay related when directories are
  made upwards in both, if each directory on the way does.
-/
theorem makeUpwards_relates
    {R : Tree → Tree → Prop}
    {G : Path → Prop}
    {path : Path}
    (hMake :
      ∀ t u p, R t u → G p →
        Match R
          (t.makeDirectory cwd directoryMode p.text)
          (u.makeDirectory cwd directoryMode p.text))
    (hAccept :
      ∀ t u p r, R t u → G p →
        t.acceptDirectory cwd p.text r =
          u.acceptDirectory cwd p.text r)
    (hParent : ∀ p, G p → G p.parent)
    (bound : Nat)
    (hTrees : R t u)
    (hPath : G path) :
    (t.makeUpwards bound cwd path).1 =
        (u.makeUpwards bound cwd path).1 ∧
      R (t.makeUpwards bound cwd path).2
        (u.makeUpwards bound cwd path).2 := by
  induction bound generalizing path with
  | zero =>
      unfold makeUpwards
      rcases (hMake t u path hTrees hPath).cases with
        ⟨r, hLeft, hRight⟩ | ⟨v, v', hLeft, hRight, hMade⟩
      · rw [hLeft, hRight]
        cases r with
        | missing => exact ⟨rfl, hTrees⟩
        | _ => exact ⟨hAccept t u path _ hTrees hPath, hTrees⟩
      · rw [hLeft, hRight]
        exact ⟨rfl, hMade⟩
  | succ bound ih =>
      unfold makeUpwards
      rcases (hMake t u path hTrees hPath).cases with
        ⟨r, hLeft, hRight⟩ | ⟨v, v', hLeft, hRight, hMade⟩
      · rw [hLeft, hRight]
        cases r with
        | missing =>
            rcases ih (hParent path hPath) with ⟨hFault, hUp⟩
            cases hAbove :
                t.makeUpwards bound cwd path.parent with
            | mk f v =>
                cases hAboveTwin :
                    u.makeUpwards bound cwd path.parent with
                | mk g v' =>
                    rw [hAbove, hAboveTwin] at hFault hUp
                    simp only at hFault hUp
                    simp only [hAbove, hAboveTwin, hFault]
                    cases g with
                    | some f => exact ⟨rfl, hUp⟩
                    | none =>
                        rcases (hMake v v' path hUp
                            hPath).cases with
                          ⟨r, hLeft, hRight⟩ |
                            ⟨x, y, hLeft, hRight, hMade⟩
                        · simp only [hLeft, hRight]
                          exact
                            ⟨hAccept v v' path _ hUp hPath,
                              hUp⟩
                        · simp only [hLeft, hRight]
                          exact ⟨trivial, hMade⟩
        | _ => exact ⟨hAccept t u path _ hTrees hPath, hTrees⟩
      · rw [hLeft, hRight]
        exact ⟨rfl, hMade⟩

------------------------------------------------------------
-- Contents
------------------------------------------------------------

/- A content is placed only where its path leads. -/
theorem place_evolves
    {G : Path → Prop}
    {content : Content}
    (hText :
      ∀ p, G p → P (destination cwd (Path.ofText p.text)))
    (hParent :
      ∀ p, G p →
        t.makeDirectory cwd directoryMode p.text =
          .error .missing →
        G p.parent)
    (hPath : G (Path.ofText text)) :
    Evolves P t (t.place cwd text content) := by
  have hHere : P (destination cwd (Path.ofText text)) := by
    have hRead := hText _ hPath
    rw [Path.ofText_text (Path.isNormal_ofText text)] at hRead
    exact hRead
  unfold place
  split
  · exact .refl t
  · have hMake :=
      makeUpwards_evolves hText hParent
        (Path.ofText text).parts.length hPath
    unfold makeDirectories
    split
    · next hUp =>
        rw [hUp] at hMake
        exact hMake.trans (changeMode_evolves hHere)
    · next hUp =>
        rw [hUp] at hMake
        exact hMake
  · split
    · exact .refl t
    · split
      · next hWrite =>
          exact (writeFile_evolves hHere hWrite).trans
            (changeMode_evolves hHere)
      · exact .refl t

/- Two trees into which the same contents are placed. -/
theorem placeAll_relates
    {R : Tree → Tree → Prop}
    {t u : Tree}
    {contents : List (String × Content)}
    (hPlace :
      ∀ c ∈ contents, ∀ v v', R v v' →
        R (v.place cwd c.1 c.2) (v'.place cwd c.1 c.2))
    (hTrees : R t u) :
    R (t.placeAll cwd contents) (u.placeAll cwd contents) := by
  induction contents generalizing t u with
  | nil => exact hTrees
  | cons c contents ih =>
      simp only [List.forall_mem_cons] at hPlace
      exact ih hPlace.2 (hPlace.1 t u hTrees)

theorem WellFormed.place
    (hTree : t.WellFormed)
    (content : Content) :
    (t.place cwd text content).WellFormed := by
  have hEvolves :
      Evolves (fun _ => True) t (t.place cwd text content) :=
    place_evolves (G := fun _ => True) (by simp)
      (by simp) trivial
  exact hEvolves.wellFormed hTree

theorem WellFormed.placeAll
    (hTree : t.WellFormed)
    (contents : List (String × Content)) :
    (t.placeAll cwd contents).WellFormed := by
  induction contents generalizing t with
  | nil => exact hTree
  | cons c contents ih =>
      apply ih
      exact hTree.place c.2

theorem WellFormed.removeAll
    (hTree : t.WellFormed) :
    (t.removeAll cwd text).2.WellFormed := by
  have hEvolves :
      Evolves (fun _ => True) t (t.removeAll cwd text).2 :=
    removeAll_evolves trivial
  exact hEvolves.wellFormed hTree

end Tree

end Files

end LocalCert
