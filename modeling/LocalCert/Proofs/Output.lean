import LocalCert.Output
import LocalCert.Proofs.Files.Writing
import LocalCert.Proofs.World.Actions

/-
  What leaving a pair in the output directory changes: the
  two files, and directories that were missing on the way.
  Afterwards the two files hold the pair, unless writing
  stops before the key, or between it and the certificate.

  Main declarations:
    * `Output.MayTouch`
    * `Output.keeps_touches_write`
    * `Output.Holds`
    * `Output.holds_of_write`
    * `Output.Course`
    * `Output.write_course`
    * `Output.Ends`
    * `Output.write_ends`
-/

------------------------------------------------------------
-- What May Change
------------------------------------------------------------

namespace LocalCert

namespace Output

open Files (destination)

/- The location of the key in an output directory. -/
def keyPlace
    (cwd : Files.Location)
    (dir : Path) : Files.Location :=
  destination cwd (keyPath dir)

/- The location of the certificate. -/
def certPlace
    (cwd : Files.Location)
    (dir : Path) : Files.Location :=
  destination cwd (certPath dir)

/-
  The first parts of a path, which lead to a directory above
  it, or to the path itself if there are no more.
-/
def ancestor
    (dir : Path)
    (n : Nat) : Path :=
  ⟨dir.root, dir.parts.take n⟩

/-
  Whether a location may be changed for the sake of an
  output directory: one of the two files, or the directory
  itself or one above it, if there was nothing.
-/
def MayTouch
    (t : Files.Tree)
    (cwd : Files.Location)
    (dir : Path)
    (l : Files.Location) : Prop :=
  l = keyPlace cwd dir ∨ l = certPlace cwd dir ∨
    t.at? l = none ∧
      ∃ n, l = destination cwd (ancestor dir n)

/- Whether nothing else has been changed. -/
def Touches
    (dir : Path)
    (before after : World) : Prop :=
  after.cwd = before.cwd ∧
    ∀ l,
      after.files.at? l = before.files.at? l ∨
        MayTouch before.files before.cwd dir l

variable {dir : Path}
variable {w v before after : World}

instance : IsPreorder World (Touches dir) where
  refl _ := ⟨rfl, fun _ => .inl rfl⟩
  trans a b c hFirst hNext := by
    rcases hFirst with ⟨hHere, hFirst⟩
    rcases hNext with ⟨hThere, hNext⟩
    refine ⟨hThere.trans hHere, ?_⟩
    intro l
    rcases hFirst l with hSame | hTouched
    · have hLater := hNext l
      unfold MayTouch at hLater ⊢
      rw [hSame, hHere] at hLater
      exact hLater
    · exact .inr hTouched

/- What leaves files alone touches nothing. -/
theorem touches_of_eq
    (hHere : after.cwd = before.cwd)
    (hFiles : after.files = before.files) :
    Touches dir before after := by
  refine ⟨hHere, fun l => .inl ?_⟩
  rw [hFiles]

theorem ancestor_parent
    (dir : Path)
    (n : Nat) :
    ∃ k, (ancestor dir n).parent = ancestor dir k := by
  refine ⟨min (n - 1) (dir.parts.length - 1), ?_⟩
  simp only [ancestor, Path.parent, Path.mk.injEq, true_and,
    List.dropLast_eq_take, List.take_take,
    List.length_take]
  congr 1
  omega

theorem ancestor_length
    (dir : Path) :
    ancestor dir dir.parts.length = dir := by
  simp [ancestor]

/-
  Whether a location is as it was, or a directory that was
  missing on the way to an output directory.
-/
def IsAsBefore
    (dir : Path)
    (cwd : Files.Location)
    (t u : Files.Tree)
    (l : Files.Location) : Prop :=
  u.at? l = t.at? l ∨
    t.at? l = none ∧
      (∃ n, l = destination cwd (ancestor dir n)) ∧
        u.at? l = some (.directory Files.directoryMode)

/- Making directories leaves all else as it was. -/
theorem isAsBefore_makeDirectories
    {cwd : Files.Location}
    (t : Files.Tree)
    (hNormal : dir.IsNormal)
    (l : Files.Location) :
    IsAsBefore dir cwd t (t.makeDirectories cwd dir).2 l := by
  refine Files.Tree.makeUpwards_growsAt
    (P := fun l => ∃ n, l = destination cwd (ancestor dir n))
    (G := fun p => ∃ n, p = ancestor dir n) ?_ ?_ _ ?_ l
  · rintro _ ⟨n, rfl⟩
    refine ⟨n, ?_⟩
    rw [Path.ofText_text]
    intro part hPart
    exact hNormal part (List.mem_of_mem_take hPart)
  · rintro _ ⟨n, rfl⟩
    exact ancestor_parent dir n
  · exact ⟨_, (ancestor_length dir).symm⟩

/-
  Making the directory changes files only, and succeeds only
  if the path can be handed to the system.
-/
theorem makeDirectory_leaves
    (hNormal : dir.IsNormal)
    (w : World) :
    ∃ files,
      ((makeDirectory dir).runIn w).2 =
          { w with files := files } ∧
        (∀ l, IsAsBefore dir w.cwd w.files files l) ∧
        (((makeDirectory dir).runIn w).1 = .ok () →
          '\x00' ∉ dir.text.toList) := by
  have hMakes :
      ∀ l,
        IsAsBefore dir w.cwd w.files
          (w.files.makeDirectories w.cwd dir).2 l :=
    isAsBefore_makeDirectories w.files hNormal
  rw [makeDirectory, Act.runIn_of]
  split
  · refine ⟨w.files, rfl, fun _ => .inl rfl, ?_⟩
    intro hDone
    cases hDone
  · next hNul =>
      have hNone : '\x00' ∉ dir.text.toList := by
        simpa using hNul
      rcases hMade : w.files.makeDirectories w.cwd dir with
        ⟨f, files⟩
      rw [hMade] at hMakes
      cases f <;>
        exact ⟨files, rfl, hMakes, fun _ => hNone⟩

theorem keeps_touches_makeDirectory
    (hNormal : dir.IsNormal) :
    Act.Keeps (Touches dir) (makeDirectory dir) := by
  intro w
  rcases makeDirectory_leaves hNormal w with
    ⟨files, hAfter, hLeaves, _⟩
  rw [hAfter]
  refine ⟨rfl, ?_⟩
  intro l
  rcases hLeaves l with hSame | ⟨hFree, hAbove, _⟩
  · exact .inl hSame
  · exact .inr (.inr (.inr ⟨hFree, hAbove⟩))

/- One step of writing, at one of the two files. -/
theorem keeps_touches_onTree
    {path : String}
    {step :
      Files.Tree → Files.Location →
        Except Files.Refusal Files.Tree}
    (hStep :
      ∀ t cwd u,
        step t cwd = .ok u →
        ∀ l,
          u.at? l = t.at? l ∨ MayTouch t cwd dir l) :
    Act.Keeps (Touches dir) (onTree path step) := by
  refine Act.Keeps.of ?_
  intro w
  cases hDone : step w.files w.cwd with
  | error r => exact refl_of (Touches dir) w
  | ok u => exact ⟨rfl, hStep w.files w.cwd u hDone⟩

------------------------------------------------------------
-- The Two Files
------------------------------------------------------------

/- The name of a path in the directory reads as the path. -/
theorem ofText_keyPath
    (hNormal : dir.IsNormal) :
    Path.ofText (keyPath dir).text = keyPath dir :=
  Path.ofText_text (hNormal.child (by decide))

theorem ofText_certPath
    (hNormal : dir.IsNormal) :
    Path.ofText (certPath dir).text = certPath dir :=
  Path.ofText_text (hNormal.child (by decide))

theorem keyPlace_ne_certPlace
    (cwd : Files.Location)
    (dir : Path) :
    keyPlace cwd dir ≠ certPlace cwd dir := by
  rw [keyPlace, certPlace, keyPath, certPath,
    Files.destination_child cwd dir (by decide),
    Files.destination_child cwd dir (by decide)]
  simp

/- The key is written with a mode of its own. -/
theorem wrote_writeKey
    {t u : Files.Tree}
    {cwd : Files.Location}
    {path key : String}
    {l : Files.Location}
    (hWrite : writeKey t cwd path key = .ok u)
    (hPlace : destination cwd (Path.ofText path) = l) :
    t.Finds cwd path l ∧
      Files.Tree.Wrote l keyMode
        (Text.Utf8.encodeText key) t u := by
  unfold writeKey at hWrite
  cases hOpen : t.openForWriting cwd keyMode path with
  | error r =>
      rw [hOpen] at hWrite
      cases hWrite
  | ok opened =>
      rcases opened with ⟨k, v⟩
      rw [hOpen] at hWrite
      cases hWrite
      rcases Files.Tree.openForWriting_eq_put hOpen with
        ⟨hFinds, hBelow, rfl⟩
      have hHere : k = l :=
        (Files.Tree.locate_eq_ok hFinds.located).trans
          hPlace
      subst hHere
      have hFile :
          ((t.put k
                (.file (t.modeAt k keyMode) [])).setMode
              k keyMode).at? k =
            some (.file keyMode []) := by
        rw [Files.Tree.at?_setMode, if_pos ⟨rfl, hBelow⟩,
          Files.Tree.at?_put hBelow, if_pos rfl]
        rfl
      refine
        ⟨hFinds,
          Files.Tree.wrote_fill hBelow hFile ?_ _⟩
      intro m hOther
      rw [Files.Tree.at?_setMode,
        if_neg (fun hBoth => hOther hBoth.1),
        Files.Tree.at?_put_of_ne hOther]

/- The paths of the two files lead to their places. -/
theorem destination_keyPath
    {cwd : Files.Location}
    (hNormal : dir.IsNormal) :
    destination cwd (Path.ofText (keyPath dir).text) =
      keyPlace cwd dir := by
  rw [ofText_keyPath hNormal, keyPlace]

theorem destination_certPath
    {cwd : Files.Location}
    (hNormal : dir.IsNormal) :
    destination cwd (Path.ofText (certPath dir).text) =
      certPlace cwd dir := by
  rw [ofText_certPath hNormal, certPlace]

/- Writing the pair touches what it may touch only. -/
theorem keeps_touches_write
    (hNormal : dir.IsNormal)
    (m : Material) :
    Act.Keeps (Touches dir) (write dir m) := by
  apply Act.Keeps.bind (keeps_touches_makeDirectory hNormal)
  intro _
  refine Act.Keeps.bind (keeps_touches_onTree ?_) ?_
  · intro t cwd u hWrite l
    have hWrote :=
      (wrote_writeKey hWrite (destination_keyPath hNormal)).2
    by_cases hHere : l = keyPlace cwd dir
    · exact .inr (.inl hHere)
    · exact .inl (hWrote.elsewhere hHere)
  · intro _
    apply keeps_touches_onTree
    intro t cwd u hWrite l
    have hWrote :=
      (Files.Tree.wrote_writeFile hWrite
        (destination_certPath hNormal)).2
    by_cases hHere : l = certPlace cwd dir
    · exact .inr (.inr (.inl hHere))
    · exact .inl (hWrote.elsewhere hHere)

------------------------------------------------------------
-- What Has Been Written
------------------------------------------------------------

/-
  Whether the two files hold a pair, byte for byte, and the
  key is the owner's only.
-/
structure Holds
    (t : Files.Tree)
    (cwd : Files.Location)
    (dir : Path)
    (m : Material) : Prop where
  key :
    t.at? (keyPlace cwd dir) =
      some (.file keyMode (Text.Utf8.encodeText m.key))
  cert :
    ∃ mode,
      t.at? (certPlace cwd dir) =
        some (.file mode (Text.Utf8.encodeText m.cert))

/- A step of writing that fails changes nothing. -/
theorem onTree_eq_error
    {path : String}
    {step :
      Files.Tree → Files.Location →
        Except Files.Refusal Files.Tree}
    {f : Failure}
    (hRun : (onTree path step).runIn w = (.error f, after)) :
    after = w ∧
      ∃ r,
        step w.files w.cwd = .error r ∧
          f = .fault (.ofRefusal r path) := by
  rw [onTree, Act.runIn_of] at hRun
  cases hDone : step w.files w.cwd with
  | ok u =>
      rw [hDone] at hRun
      cases hRun
  | error r =>
      rw [hDone] at hRun
      cases hRun
      exact ⟨rfl, r, rfl, rfl⟩

/- A step of writing that succeeds. -/
theorem onTree_eq_ok
    {path : String}
    {step :
      Files.Tree → Files.Location →
        Except Files.Refusal Files.Tree}
    (hRun : (onTree path step).runIn w = (.ok (), after)) :
    ∃ u,
      step w.files w.cwd = .ok u ∧
        after = { w with files := u } := by
  rw [onTree, Act.runIn_of] at hRun
  cases hDone : step w.files w.cwd with
  | error r =>
      rw [hDone] at hRun
      cases hRun
  | ok u =>
      rw [hDone] at hRun
      cases hRun
      exact ⟨u, rfl, rfl⟩

------------------------------------------------------------
-- Where Writing Stops
------------------------------------------------------------

/- A file that cannot be written cannot be opened for it. -/
theorem openForWriting_of_writeFile
    {t : Files.Tree}
    {cwd : Files.Location}
    {path : String}
    {bytes : List UInt8}
    {r : Files.Refusal}
    (hWrite : t.writeFile cwd path bytes = .error r) :
    t.openForWriting cwd Files.fileMode path = .error r := by
  unfold Files.Tree.writeFile at hWrite
  cases hOpen : t.openForWriting cwd Files.fileMode path with
  | ok opened =>
      rw [hOpen] at hWrite
      cases hWrite
  | error refusal =>
      rw [hOpen] at hWrite
      cases hWrite
      rfl

/-
  The steps that writing a pair takes until it ends: the
  directory is made, then the key is written, and then the
  certificate.  The first step that fails is the last one.
-/
inductive Course
    (dir : Path)
    (m : Material)
    (w : World) : Except Failure Unit × World → Prop where
  | stopped {f : Failure} {made : Files.Tree}
      (hMade :
        ∀ l, IsAsBefore dir w.cwd w.files made l) :
      Course dir m w (.error f, { w with files := made })
  | keyOnly {r : Files.Refusal} {made keyed : Files.Tree}
      (hMade :
        ∀ l, IsAsBefore dir w.cwd w.files made l)
      (hKeyed :
        Files.Tree.Wrote (keyPlace w.cwd dir) keyMode
          (Text.Utf8.encodeText m.key) made keyed)
      (hRefused :
        keyed.openForWriting w.cwd Files.fileMode
          (certPath dir).text = .error r) :
      Course dir m w
        (.error (.fault (.ofRefusal r (certPath dir).text)),
          { w with files := keyed })
  | both {made keyed files : Files.Tree}
      (hNul : '\x00' ∉ dir.text.toList)
      (hMade :
        ∀ l, IsAsBefore dir w.cwd w.files made l)
      (hKeyFound :
        made.Finds w.cwd (keyPath dir).text
          (keyPlace w.cwd dir))
      (hKeyed :
        Files.Tree.Wrote (keyPlace w.cwd dir) keyMode
          (Text.Utf8.encodeText m.key) made keyed)
      (hCertFound :
        keyed.Finds w.cwd (certPath dir).text
          (certPlace w.cwd dir))
      (hDone :
        Files.Tree.Wrote (certPlace w.cwd dir)
          (keyed.modeAt (certPlace w.cwd dir)
            Files.fileMode)
          (Text.Utf8.encodeText m.cert) keyed files) :
      Course dir m w (.ok (), { w with files := files })

theorem write_course
    (hNormal : dir.IsNormal)
    (m : Material)
    (w : World) :
    Course dir m w ((write dir m).runIn w) := by
  rcases makeDirectory_leaves hNormal w with
    ⟨made, hAfter, hMade, hNul⟩
  rcases hMake : (makeDirectory dir).runIn w with
    ⟨result, after⟩
  rw [hMake] at hAfter hNul
  subst hAfter
  rw [write, Act.runIn_bind, hMake]
  cases result with
  | error f => exact .stopped hMade
  | ok _ =>
      simp only [Act.runIn_bind]
      split
      · next keyed hKeyStep =>
          rcases onTree_eq_ok hKeyStep with ⟨t, hKey, rfl⟩
          rcases wrote_writeKey hKey
              (destination_keyPath hNormal) with
            ⟨hKeyFound, hKeyed⟩
          rcases hCertStep :
              (onTree (certPath dir).text _).runIn _ with
            ⟨result, last⟩
          cases result with
          | ok _ =>
              rcases onTree_eq_ok hCertStep with
                ⟨u, hCert, rfl⟩
              rcases Files.Tree.wrote_writeFile hCert
                  (destination_certPath hNormal) with
                ⟨hCertFound, hDone⟩
              exact .both (hNul rfl) hMade hKeyFound hKeyed
                hCertFound hDone
          | error f =>
              rcases onTree_eq_error hCertStep with
                ⟨rfl, r, hCert, rfl⟩
              exact .keyOnly hMade hKeyed
                (openForWriting_of_writeFile hCert)
      · next f last hKeyStep =>
          rcases onTree_eq_error hKeyStep with ⟨rfl, _⟩
          exact .stopped hMade

/- A pair that has been written is there. -/
theorem holds_of_write
    {m : Material}
    (hNormal : dir.IsNormal)
    (hWrite : (write dir m).runIn w = (.ok (), after)) :
    Holds after.files after.cwd dir m := by
  have hCourse := write_course hNormal m w
  rw [hWrite] at hCourse
  cases hCourse with
  | both _ _ _ hKeyed _ hDone =>
      have hOther := keyPlace_ne_certPlace w.cwd dir
      constructor
      · exact (hDone.elsewhere hOther).trans hKeyed.here
      · exact ⟨_, hDone.here⟩

/-
  The ways in which writing a pair ends.  It writes both
  files or neither, or it writes the key and then finds that
  it may not open the certificate.
-/
inductive Ends
    (dir : Path)
    (m : Material)
    (w : World) : Except Failure Unit × World → Prop where
  | both {after : World}
      (hHolds : Holds after.files w.cwd dir m) :
      Ends dir m w (.ok (), after)
  | neither {after : World} {f : Failure}
      (hBefore :
        ∀ l, IsAsBefore dir w.cwd w.files after.files l) :
      Ends dir m w (.error f, after)
  | keyOnly {after : World} {r : Files.Refusal}
      (hKey :
        after.files.at? (keyPlace w.cwd dir) =
          some (.file keyMode (Text.Utf8.encodeText m.key)))
      (hCert :
        IsAsBefore dir w.cwd w.files after.files
          (certPlace w.cwd dir))
      (hRefused :
        after.files.openForWriting w.cwd Files.fileMode
          (certPath dir).text = .error r) :
      Ends dir m w
        (.error (.fault (.ofRefusal r (certPath dir).text)),
          after)

theorem write_ends
    (hNormal : dir.IsNormal)
    (m : Material)
    (w : World) :
    Ends dir m w ((write dir m).runIn w) := by
  have hCourse := write_course hNormal m w
  have hOther := keyPlace_ne_certPlace w.cwd dir
  rcases hRun : (write dir m).runIn w with ⟨result, after⟩
  rw [hRun] at hCourse
  cases hCourse with
  | stopped hMade => exact .neither hMade
  | keyOnly hMade hKeyed hRefused =>
      refine .keyOnly hKeyed.here ?_ hRefused
      -- The key lies elsewhere, so making directories is
      -- all that can have reached the certificate.
      have hBefore := hMade (certPlace w.cwd dir)
      unfold IsAsBefore at hBefore ⊢
      rw [hKeyed.elsewhere hOther.symm]
      exact hBefore
  | both _ _ _ _ _ _ => exact .both (holds_of_write hNormal hRun)

end Output

end LocalCert
