import LocalCert.Files.Content
import LocalCert.Proofs.Files.Operations
import Mathlib.Data.List.Forall2

/-
  File trees that are the same but for the contents of some
  files.  Every operation gives the same answer on both and
  leaves trees that are the same in the same way.

  Main declarations:
    * `Files.Tree.Alike`
    * `Files.Tree.Alike.locate_eq`
    * `Files.Tree.Alike.place`
    * `Files.Tree.Alike.removeAll`
    * `Files.Tree.Alike.read`
-/

------------------------------------------------------------
-- Trees That Are Alike
------------------------------------------------------------

namespace LocalCert

namespace Files

/- Which contents may stand for each other at a location. -/
abbrev Difference : Type :=
  Location → List UInt8 → List UInt8 → Prop

/- The same node, or files whose contents may differ. -/
inductive Node.Alike
    (D : Difference)
    (l : Location) : Node → Node → Prop where
  | same (node : Node) : Alike D l node node
  | file
      {a b : List UInt8}
      (mode : Nat)
      (hDiffer : D l a b) :
      Alike D l (.file mode a) (.file mode b)

/- The same location with nodes that are alike. -/
def EntryAlike
    (D : Difference)
    (a b : Location × Node) : Prop :=
  a.1 = b.1 ∧ a.2.Alike D a.1 b.2

namespace Tree

/- Trees with the same locations and nodes that are alike. -/
def Alike
    (D : Difference)
    (t u : Tree) : Prop :=
  List.Forall₂ (EntryAlike D) t.nodes u.nodes

end Tree

variable {D : Difference}
variable {cwd l : Location}
variable {text : String}

namespace Node.Alike

variable {a b : Node}

theorem mode_eq
    (hNodes : a.Alike D l b) :
    a.mode = b.mode := by
  cases hNodes <;> rfl

theorem isDirectory_eq
    (hNodes : a.Alike D l b) :
    a.isDirectory = b.isDirectory := by
  cases hNodes <;> rfl

theorem withMode
    (mode : Nat)
    (hNodes : a.Alike D l b) :
    (a.withMode mode).Alike D l (b.withMode mode) := by
  cases hNodes with
  | same => exact .same _
  | file old hDiffer => exact .file mode hDiffer

end Node.Alike

namespace Tree.Alike

variable {t u : Tree}

theorem refl
    (t : Tree) :
    t.Alike D t := by
  refine List.forall₂_same.mpr ?_
  intro n _
  exact ⟨rfl, .same _⟩

------------------------------------------------------------
-- Nodes
------------------------------------------------------------

theorem locations_eq
    {as bs : List (Location × Node)}
    (hEntries : List.Forall₂ (EntryAlike D) as bs) :
    as.map Prod.fst = bs.map Prod.fst := by
  induction hEntries with
  | nil => rfl
  | cons hEntry _ ih => simp [hEntry.1, ih]

/- Looking for an entry by its location or its mode. -/
theorem find?_cases
    {p q : Location × Node → Bool}
    {as bs : List (Location × Node)}
    (hEntries : List.Forall₂ (EntryAlike D) as bs)
    (hTest : ∀ a b, EntryAlike D a b → p a = q b) :
    as.find? p = none ∧ bs.find? q = none ∨
      ∃ a b,
        as.find? p = some a ∧ bs.find? q = some b ∧
          EntryAlike D a b := by
  induction hEntries with
  | nil => exact .inl ⟨rfl, rfl⟩
  | @cons a b as bs hEntry _ ih =>
      rw [List.find?_cons, List.find?_cons,
        hTest a b hEntry]
      cases q b with
      | true => exact .inr ⟨a, b, rfl, rfl, hEntry⟩
      | false => exact ih

/- The same stands at a location, or nothing in both. -/
theorem at?_cases
    (hTrees : t.Alike D u)
    (l : Location) :
    t.at? l = none ∧ u.at? l = none ∨
      ∃ a b,
        t.at? l = some a ∧ u.at? l = some b ∧
          a.Alike D l b := by
  by_cases hRoot : l = []
  · subst hRoot
    exact .inr ⟨_, _, rfl, rfl, .same _⟩
  · have hTest :
        ∀ a b : Location × Node,
          EntryAlike D a b → (a.1 == l) = (b.1 == l) := by
      intro a b hEntry
      rw [hEntry.1]
    rcases find?_cases hTrees hTest with
      ⟨hNone, hTwin⟩ | ⟨a, b, hSome, hTwin, hEntry⟩
    · refine .inl ⟨?_, ?_⟩
      · simp [Tree.at?, hRoot, hNone]
      · simp [Tree.at?, hRoot, hTwin]
    · have hHere : a.1 = l := by
        simpa using List.find?_some hSome
      refine .inr ⟨a.2, b.2, ?_, ?_, ?_⟩
      · simp [Tree.at?, hRoot, hSome]
      · simp [Tree.at?, hRoot, hTwin]
      · rw [← hHere]
        exact hEntry.2

theorem occupied_eq
    (hTrees : t.Alike D u)
    (l : Location) :
    t.occupied l = u.occupied l := by
  have hSame :
      ∀ nodes : List (Location × Node),
        nodes.any (fun n => n.1 == l) =
          (nodes.map Prod.fst).any (fun m => m == l) := by
    intro nodes
    rw [List.any_map]
    rfl
  rw [occupied, occupied, hSame, hSame,
    locations_eq hTrees]

theorem put
    {a b : Node}
    (hTrees : t.Alike D u)
    (hNodes : a.Alike D l b) :
    (t.put l a).Alike D (u.put l b) := by
  unfold Tree.put
  rw [hTrees.occupied_eq l]
  cases u.occupied l with
  | true =>
      refine List.rel_map ?_ hTrees
      intro m n hEntry
      simp only [hEntry.1]
      split
      · exact ⟨rfl, hNodes⟩
      · exact hEntry
  | false =>
      exact List.rel_append hTrees
        (.cons ⟨rfl, hNodes⟩ .nil)

theorem filter
    {as bs : List (Location × Node)}
    (keeps : Location → Bool)
    (hEntries : List.Forall₂ (EntryAlike D) as bs) :
    List.Forall₂ (EntryAlike D)
      (as.filter (fun n => keeps n.1))
      (bs.filter (fun n => keeps n.1)) := by
  induction hEntries with
  | nil => exact .nil
  | @cons a b as bs hEntry _ ih =>
      rw [List.filter_cons, List.filter_cons, hEntry.1]
      split
      · exact .cons hEntry ih
      · exact ih

theorem cut
    (hTrees : t.Alike D u)
    (l : Location) :
    (t.cut l).Alike D (u.cut l) :=
  filter (fun m => !l.isPrefixOf m) hTrees

theorem cutBelow
    (hTrees : t.Alike D u)
    (l : Location) :
    (t.cutBelow l).Alike D (u.cutBelow l) :=
  filter (fun m => m == l || !l.isPrefixOf m) hTrees

------------------------------------------------------------
-- Walking
------------------------------------------------------------

theorem check_eq
    (hTrees : t.Alike D u)
    (p : Permission)
    (l : Location) :
    t.check p l = u.check p l := by
  unfold Tree.check
  rcases hTrees.at?_cases l with
    ⟨hNone, hTwin⟩ | ⟨a, b, hSome, hTwin, hNodes⟩
  · rw [hNone, hTwin]
  · rw [hSome, hTwin]
    cases hNodes <;> rfl

theorem checkParent_eq
    (hTrees : t.Alike D u)
    (l : Location) :
    t.checkParent l = u.checkParent l := by
  rw [checkParent, checkParent, hTrees.check_eq,
    hTrees.check_eq]

theorem walk_eq
    (hTrees : t.Alike D u)
    (here : Location)
    (parts : List String) :
    t.walk here parts = u.walk here parts := by
  induction parts generalizing here with
  | nil => rfl
  | cons p ps ih =>
      rw [walk, walk, hTrees.check_eq, ih, ih]

theorem locate_eq
    (hTrees : t.Alike D u)
    (cwd : Location)
    (text : String) :
    t.locate cwd text = u.locate cwd text := by
  rw [locate, locate, hTrees.walk_eq]

theorem isDirectoryAt_eq
    (hTrees : t.Alike D u)
    (cwd : Location)
    (text : String) :
    t.isDirectoryAt cwd text = u.isDirectoryAt cwd text := by
  unfold isDirectoryAt
  rw [hTrees.locate_eq]
  cases u.locate cwd text with
  | error r => rfl
  | ok l =>
      rcases hTrees.at?_cases l with
        ⟨hNone, hTwin⟩ | ⟨a, b, hSome, hTwin, hNodes⟩
      · simp only [hNone, hTwin]
      · simp only [hSome, hTwin, hNodes.isDirectory_eq]

------------------------------------------------------------
-- Making And Writing
------------------------------------------------------------

theorem makeDirectory
    (hTrees : t.Alike D u)
    (cwd : Location)
    (mode : Nat)
    (text : String) :
    Match (Tree.Alike D)
      (t.makeDirectory cwd mode text)
      (u.makeDirectory cwd mode text) := by
  unfold Tree.makeDirectory
  rw [hTrees.locate_eq]
  cases u.locate cwd text with
  | error r => rfl
  | ok l =>
      simp only [bind, Except.bind, hTrees.checkParent_eq]
      rcases hTrees.at?_cases l with
        ⟨hNone, hTwin⟩ | ⟨a, b, hSome, hTwin, hNodes⟩
      · rw [hNone, hTwin]
        cases u.checkParent l with
        | error r => rfl
        | ok _ => exact hTrees.put (.same _)
      · rw [hSome, hTwin]
        rfl

theorem openForWriting
    (hTrees : t.Alike D u)
    (cwd : Location)
    (mode : Nat)
    (text : String) :
    Match
      (fun p q : Location × Tree =>
        p.1 = destination cwd (Path.ofText text) ∧
          q.1 = p.1 ∧ p.2.Alike D q.2)
      (t.openForWriting cwd mode text)
      (u.openForWriting cwd mode text) := by
  unfold Tree.openForWriting
  rw [hTrees.locate_eq]
  cases hLocate : u.locate cwd text with
  | error r => rfl
  | ok l =>
      have hHere := locate_eq_ok hLocate
      simp only [bind, Except.bind, hTrees.checkParent_eq]
      rcases hTrees.at?_cases l with
        ⟨hNone, hTwin⟩ | ⟨a, b, hSome, hTwin, hNodes⟩
      · rw [hNone, hTwin]
        cases u.checkParent l with
        | error r => rfl
        | ok _ => exact ⟨hHere, rfl, hTrees.put (.same _)⟩
      · rw [hSome, hTwin]
        have hEmptied :
            ∀ old,
              (t.put l (.file old [])).Alike D
                (u.put l (.file old [])) := by
          intro old
          exact hTrees.put (.same _)
        cases hNodes with
        | same =>
            cases a with
            | directory mode => rfl
            | file old bytes =>
                simp only
                split
                · exact ⟨hHere, rfl, hEmptied old⟩
                · rfl
        | file old hDiffer =>
            simp only
            split
            · exact ⟨hHere, rfl, hEmptied old⟩
            · rfl

theorem setMode
    (hTrees : t.Alike D u)
    (l : Location)
    (mode : Nat) :
    (t.setMode l mode).Alike D (u.setMode l mode) := by
  unfold Tree.setMode
  rw [hTrees.occupied_eq]
  rcases hTrees.at?_cases l with
    ⟨hNone, hTwin⟩ | ⟨a, b, hSome, hTwin, hNodes⟩
  · rw [hNone, hTwin]
    exact hTrees
  · rw [hSome, hTwin]
    simp only
    split
    · exact hTrees.put (hNodes.withMode mode)
    · exact hTrees

/- Contents to be written that may stand for each other. -/
theorem fill
    {a b : List UInt8}
    (hTrees : t.Alike D u)
    (hBytes : a = b ∨ D l a b) :
    (t.fill l a).Alike D (u.fill l b) := by
  have hFile :
      ∀ mode,
        (Node.file mode a).Alike D l (.file mode b) := by
    intro mode
    rcases hBytes with rfl | hDiffer
    · exact .same _
    · exact .file mode hDiffer
  unfold Tree.fill
  rcases hTrees.at?_cases l with
    ⟨hNone, hTwin⟩ | ⟨m, n, hSome, hTwin, hNodes⟩
  · rw [hNone, hTwin]
    exact hTrees
  · rw [hSome, hTwin]
    cases hNodes with
    | same =>
        cases m with
        | directory mode => exact hTrees
        | file mode bytes => exact hTrees.put (hFile mode)
    | file mode hDiffer => exact hTrees.put (hFile mode)

theorem writeFile
    {a b : List UInt8}
    (hTrees : t.Alike D u)
    (hBytes :
      a = b ∨ D (destination cwd (Path.ofText text)) a b) :
    Match (Tree.Alike D)
      (t.writeFile cwd text a)
      (u.writeFile cwd text b) := by
  refine (hTrees.openForWriting cwd fileMode text).map ?_
  rintro ⟨l, v⟩ ⟨k, v'⟩ ⟨hHere, hSame, hLater⟩
  simp only at hHere hSame
  rw [hSame, hHere]
  exact hLater.fill hBytes

theorem changeMode
    (hTrees : t.Alike D u)
    (cwd : Location)
    (text : String)
    (mode : Option Nat) :
    (t.changeMode cwd text mode).Alike D
      (u.changeMode cwd text mode) := by
  unfold Tree.changeMode
  rw [hTrees.locate_eq]
  cases mode with
  | none => exact hTrees
  | some mode =>
      cases u.locate cwd text with
      | error r => exact hTrees
      | ok l => exact hTrees.setMode l mode

theorem acceptDirectory_eq
    (hTrees : t.Alike D u)
    (cwd : Location)
    (text : String)
    (r : Refusal) :
    t.acceptDirectory cwd text r =
      u.acceptDirectory cwd text r := by
  rw [acceptDirectory, acceptDirectory,
    hTrees.isDirectoryAt_eq]

theorem makeUpwards
    (bound : Nat)
    (hTrees : t.Alike D u)
    (cwd : Location)
    (path : Path) :
    (t.makeUpwards bound cwd path).1 =
        (u.makeUpwards bound cwd path).1 ∧
      (t.makeUpwards bound cwd path).2.Alike D
        (u.makeUpwards bound cwd path).2 := by
  refine makeUpwards_relates (G := fun _ => True)
    ?_ ?_ ?_ bound hTrees trivial
  · intro t u p hAlike _
    exact hAlike.makeDirectory cwd directoryMode p.text
  · intro t u p r hAlike _
    exact hAlike.acceptDirectory_eq cwd p.text r
  · intro _ _
    trivial

------------------------------------------------------------
-- Contents
------------------------------------------------------------

end Tree.Alike

/- The same content, or bytes that may differ. -/
inductive Content.Alike
    (D : Difference)
    (l : Location) : Content → Content → Prop where
  | same (content : Content) : Alike D l content content
  | bytes
      {a b : List UInt8}
      (mode : Option Nat)
      (hDiffer : D l a b) :
      Alike D l ⟨.bytes a, mode⟩ ⟨.bytes b, mode⟩

/- Contents for the same path that are alike there. -/
def PlacementAlike
    (D : Difference)
    (cwd : Location)
    (c d : String × Content) : Prop :=
  c.1 = d.1 ∧
    c.2.Alike D (destination cwd (Path.ofText c.1)) d.2

namespace Tree.Alike

variable {t u : Tree}

theorem placeBytes
    {a b : List UInt8}
    (hTrees : t.Alike D u)
    (mode : Option Nat)
    (hBytes :
      a = b ∨ D (destination cwd (Path.ofText text)) a b) :
    (t.place cwd text ⟨.bytes a, mode⟩).Alike D
      (u.place cwd text ⟨.bytes b, mode⟩) := by
  unfold Tree.place
  simp only
  split
  · exact hTrees
  · rcases (hTrees.writeFile hBytes).cases with
      ⟨r, hWrite, hTwin⟩ | ⟨v, v', hWrite, hTwin, hLater⟩
    · rw [hWrite, hTwin]
      exact hTrees
    · rw [hWrite, hTwin]
      exact hLater.changeMode cwd text mode

theorem place
    {c d : Content}
    (hTrees : t.Alike D u)
    (hContents :
      c.Alike D (destination cwd (Path.ofText text)) d) :
    (t.place cwd text c).Alike D (u.place cwd text d) := by
  cases hContents with
  | bytes mode hDiffer =>
      exact hTrees.placeBytes mode (.inr hDiffer)
  | same =>
      rcases c with ⟨body, mode⟩
      cases body with
      | nothing => exact hTrees
      | bytes bytes =>
          exact hTrees.placeBytes mode (.inl rfl)
      | directory =>
          have hMade :=
            hTrees.makeUpwards
              (Path.ofText text).parts.length cwd
              (Path.ofText text)
          unfold Tree.place makeDirectories
          rcases hLeft : t.makeUpwards
              (Path.ofText text).parts.length cwd
              (Path.ofText text) with ⟨f, v⟩
          rcases hRight : u.makeUpwards
              (Path.ofText text).parts.length cwd
              (Path.ofText text) with ⟨g, v'⟩
          rw [hLeft, hRight] at hMade
          rcases hMade with ⟨hFault, hLater⟩
          simp only at hFault hLater
          simp only [hFault]
          cases g with
          | none => exact hLater.changeMode cwd text mode
          | some f => exact hLater

theorem placeAll
    {cs ds : List (String × Content)}
    (hTrees : t.Alike D u)
    (hContents : List.Forall₂ (PlacementAlike D cwd) cs ds) :
    (t.placeAll cwd cs).Alike D (u.placeAll cwd ds) := by
  induction hContents generalizing t u with
  | nil => exact hTrees
  | @cons c d cs ds hFirst _ ih =>
      rcases hFirst with ⟨hPath, hContent⟩
      refine ih ?_
      simp only [← hPath]
      exact hTrees.place hContent

------------------------------------------------------------
-- Reading And Removing
------------------------------------------------------------

/- The same refusal, or bytes that may differ. -/
theorem read
    (hTrees : t.Alike D u)
    (cwd : Location)
    (text : String) :
    Match
      (fun a b =>
        a = b ∨ D (destination cwd (Path.ofText text)) a b)
      (t.read cwd text)
      (u.read cwd text) := by
  unfold Tree.read
  rw [hTrees.locate_eq]
  cases hLocate : u.locate cwd text with
  | error r => rfl
  | ok l =>
      rw [← locate_eq_ok hLocate]
      simp only [bind, Except.bind]
      rcases hTrees.at?_cases l with
        ⟨hNone, hTwin⟩ | ⟨a, b, hSome, hTwin, hNodes⟩
      · rw [hNone, hTwin]
        rfl
      · simp only [hSome, hTwin, hNodes.mode_eq]
        split
        · rfl
        · cases hNodes with
          | same =>
              cases a with
              | directory mode => rfl
              | file mode bytes => exact .inl rfl
          | file mode hDiffer => exact .inr hDiffer

theorem resists_eq
    {a b : Location × Node}
    (hTrees : t.Alike D u)
    (hEntry : EntryAlike D a b) :
    t.resists a = u.resists b := by
  unfold resists
  rw [hTrees.checkParent_eq, hEntry.1,
    hEntry.2.isDirectory_eq, hEntry.2.mode_eq]

theorem removeAll
    (hTrees : t.Alike D u)
    (cwd : Location)
    (text : String) :
    (t.removeAll cwd text).1 = (u.removeAll cwd text).1 ∧
      (t.removeAll cwd text).2.Alike D
        (u.removeAll cwd text).2 := by
  unfold Tree.removeAll
  rw [hTrees.locate_eq]
  cases u.locate cwd text with
  | error r => exact ⟨rfl, hTrees⟩
  | ok l =>
      have hBelow :
          List.Forall₂ (EntryAlike D)
            (t.below l) (u.below l) :=
        filter (fun m => l.isPrefixOf m && m != l) hTrees
      rcases hTrees.at?_cases l with
        ⟨hNone, hTwin⟩ | ⟨a, b, hSome, hTwin, hNodes⟩
      · simp only [hNone, hTwin]
        exact ⟨trivial, hTrees⟩
      · simp only [hSome, hTwin, hNodes.mode_eq,
          hNodes.isDirectory_eq, hTrees.checkParent_eq]
        split
        · exact ⟨rfl, hTrees⟩
        · split
          · exact ⟨rfl, hTrees⟩
          · rcases find?_cases hBelow
                (fun a b => hTrees.resists_eq) with
              ⟨hFree, hFreeTwin⟩ |
                ⟨m, n, hFound, hFoundTwin, hEntry⟩
            · rw [hFree, hFreeTwin]
              cases u.checkParent l with
              | error r => exact ⟨rfl, hTrees.cutBelow l⟩
              | ok _ => exact ⟨rfl, hTrees.cut l⟩
            · simp only [hFound, hFoundTwin, hEntry.1]
              exact ⟨trivial, hTrees⟩

end Tree.Alike

end Files

end LocalCert
