import LocalCert.Proofs.Output
import LocalCert.Proofs.Text.Newline
import LocalCert.Proofs.Workspace.Lifetime
import LocalCert.Proofs.Workspace.Reading

/-
  Reading a pair back from the output directory.  What was
  written is read, with one kind of line end, unless an old
  certificate stays closed to its owner.  The key is never
  there in a file that others may read, but for a file that
  was there before and could not be written.

  Main declarations:
    * `Material.unified`
    * `Output.Course.readMaterial`
    * `Output.KeepsKeyPrivate`
    * `Output.write_reads_back`
-/

------------------------------------------------------------
-- Texts With One Kind Of Line End
------------------------------------------------------------

namespace LocalCert

/- A text as it is read from a file. -/
def Text.unified
    (s : String) : String :=
  String.ofList (unifyNewlines s.toList)

/- A pair as it is read from its files. -/
def Material.unified
    (m : Material) : Material :=
  ⟨Text.unified m.key, Text.unified m.cert⟩

theorem Text.unified_eq_self_iff
    {s : String} :
    unified s = s ↔ '\r' ∉ s.toList := by
  rw [← String.toList_inj, unified, String.toList_ofList]
  exact unifyNewlines_eq_self_iff

/- A pair is read as it is if it has no carriage returns. -/
theorem Material.unified_eq_self_iff
    {m : Material} :
    m.unified = m ↔
      '\r' ∉ m.key.toList ∧ '\r' ∉ m.cert.toList := by
  rcases m with ⟨key, cert⟩
  rw [unified, mk.injEq, Text.unified_eq_self_iff,
    Text.unified_eq_self_iff]

------------------------------------------------------------
-- Reading Files
------------------------------------------------------------

section

open Files (Location)

variable {t : Files.Tree}
variable {cwd l : Location}
variable {path : String}
variable {mode : Nat}

/- A file is read if its owner may read it. -/
theorem Files.Tree.read_of_file
    {bytes : List UInt8}
    (hLocate : t.locate cwd path = .ok l)
    (hFile : t.at? l = some (.file mode bytes)) :
    t.read cwd path =
      if grants mode .read then .ok bytes
      else .error .denied := by
  simp only [read, hLocate, bind, Except.bind, hFile,
    Node.mode, pure, Except.pure]
  by_cases hGrants : grants mode .read = true <;>
    simp [hGrants]

/- The failure when a file may not be read. -/
def Workspace.unreadable
    (path : String) : Failure :=
  .materialUnreadable (.fault (.ofRefusal .denied path))

/- A text that was written is read. -/
theorem Workspace.readText_of_file
    {w : World}
    {s : String}
    (hNul : hasNul path = false)
    (hLocate : w.files.locate w.cwd path = .ok l)
    (hFile :
      w.files.at? l =
        some (.file mode (Text.Utf8.encodeText s))) :
    readText w path =
      if Files.grants mode .read then
        .ok (Text.unified s)
      else
        .error (unreadable path) := by
  have hBytes := Files.Tree.read_of_file hLocate hFile
  have hDecode :
      Text.Utf8.decode (Text.Utf8.encodeText s) =
        .ok s.toList :=
    Text.Utf8.decode_encode s.toList
  rw [readText, hNul, hBytes]
  by_cases hGrants : Files.grants mode .read = true
  · simp [hGrants, hDecode, Text.unified]
  · simp [hGrants, unreadable]

end

namespace Output

open Workspace (hasNul unreadable)

variable {dir : Path}
variable {m : Material}
variable {w : World}

theorem hasNul_child
    {name : String}
    (hNormal : dir.IsNormal)
    (hDirectory : '\x00' ∉ dir.text.toList)
    (hName : hasNul name = false) :
    hasNul (dir.child name).text = false := by
  have hText : hasNul dir.text = false :=
    Workspace.hasNul_eq_false_iff.mpr hDirectory
  have hChild := Workspace.hasNul_text_child hText hName
  rwa [Path.ofText_text hNormal] at hChild

theorem hasNul_keyPath
    (hNormal : dir.IsNormal)
    (hDirectory : '\x00' ∉ dir.text.toList) :
    hasNul (keyPath dir).text = false :=
  hasNul_child hNormal hDirectory (by decide)

theorem hasNul_certPath
    (hNormal : dir.IsNormal)
    (hDirectory : '\x00' ∉ dir.text.toList) :
    hasNul (certPath dir).text = false :=
  hasNul_child hNormal hDirectory (by decide)

/- Where the certificate was, its mode is kept. -/
theorem modeAt_certPlace
    {made keyed : Files.Tree}
    (hMade : ∀ l, IsAsBefore dir w.cwd w.files made l)
    (hKeyed :
      Files.Tree.Wrote (keyPlace w.cwd dir) keyMode
        (Text.Utf8.encodeText m.key) made keyed)
    (hCertFound :
      keyed.Finds w.cwd (certPath dir).text
        (certPlace w.cwd dir)) :
    keyed.modeAt (certPlace w.cwd dir) Files.fileMode =
      w.files.modeAt (certPlace w.cwd dir)
        Files.fileMode := by
  have hOther := keyPlace_ne_certPlace w.cwd dir
  have hKept := hKeyed.elsewhere hOther.symm
  rcases hMade (certPlace w.cwd dir) with
    hSame | ⟨_, _, hDirectory⟩
  · rw [Files.Tree.modeAt, Files.Tree.modeAt, hKept, hSame]
  · rw [← hKept] at hDirectory
    exact absurd hDirectory (hCertFound.noDirectory _)

/-
  What reading the two files gives, depending on whether the
  owner may read the certificate.
-/
def readBack
    (dir : Path)
    (m : Material)
    (mode : Nat) : Except Failure Material :=
  if Files.grants mode .read then
    .ok m.unified
  else
    .error (unreadable (certPath dir).text)

/- A pair that was written is read. -/
theorem Course.readMaterial
    {after : World}
    (hNormal : dir.IsNormal)
    (hCourse : Course dir m w (.ok (), after)) :
    (Workspace.readMaterial (keyPath dir).text
        (certPath dir).text).runIn after =
      (readBack dir m
        (w.files.modeAt (certPlace w.cwd dir)
          Files.fileMode), after) := by
  cases hCourse with
  | @both made keyed files hNul hMade hKeyFound hKeyed
      hCertFound hDone =>
      have hOther := keyPlace_ne_certPlace w.cwd dir
      have hKeyed' :=
        (hKeyed.keepsDirectories hKeyFound)
      have hKept := hDone.keepsDirectories hCertFound
      have hKeyLocated :
          files.locate w.cwd (keyPath dir).text =
            .ok (keyPlace w.cwd dir) :=
        hKept.locate (hKeyed'.locate hKeyFound.located)
      have hCertLocated :
          files.locate w.cwd (certPath dir).text =
            .ok (certPlace w.cwd dir) :=
        hKept.locate hCertFound.located
      have hKeyMode : Files.grants keyMode .read = true := by
        decide
      have hKeyText :=
        Workspace.readText_of_file
          (w := { w with files := files })
          (hasNul_keyPath hNormal hNul) hKeyLocated
          ((hDone.elsewhere hOther).trans hKeyed.here)
      have hCertText :=
        Workspace.readText_of_file
          (w := { w with files := files })
          (hasNul_certPath hNormal hNul) hCertLocated
          hDone.here
      rw [if_pos hKeyMode] at hKeyText
      rw [modeAt_certPlace hMade hKeyed hCertFound]
        at hCertText
      simp only [Workspace.readMaterial, Act.runIn_of, hKeyText,
        hCertText, readBack]
      by_cases hGrants :
          Files.grants
            (w.files.modeAt (certPlace w.cwd dir)
              Files.fileMode) .read = true
      · simp only [if_pos hGrants]
        rfl
      · simp only [if_neg hGrants]

------------------------------------------------------------
-- Who May Read The Key
------------------------------------------------------------

/-
  Whether a key that is in its place has been kept private:
  its file has the mode of the key file, unless writing
  failed and the same file was there before.
-/
def KeepsKeyPrivate
    (dir : Path)
    (m : Material)
    (w : World)
    (run : Except Failure Unit × World) : Prop :=
  ∀ mode,
    run.2.files.at? (keyPlace w.cwd dir) =
      some (.file mode (Text.Utf8.encodeText m.key)) →
    mode = keyMode ∨
      (∃ f, run.1 = .error f) ∧
        w.files.at? (keyPlace w.cwd dir) =
          some (.file mode (Text.Utf8.encodeText m.key))

theorem Course.keepsKeyPrivate
    {run : Except Failure Unit × World}
    (hCourse : Course dir m w run) :
    KeepsKeyPrivate dir m w run := by
  have hOther := keyPlace_ne_certPlace w.cwd dir
  intro mode hKey
  have hWritten :
      ∀ files : Files.Tree,
        files.at? (keyPlace w.cwd dir) =
          some
            (.file keyMode (Text.Utf8.encodeText m.key)) →
        files.at? (keyPlace w.cwd dir) =
          some (.file mode (Text.Utf8.encodeText m.key)) →
        mode = keyMode := by
    intro files hFirst hSecond
    have hSame := hSecond.symm.trans hFirst
    cases hSame
    rfl
  cases hCourse with
  | stopped hMade =>
      right
      refine ⟨⟨_, rfl⟩, ?_⟩
      rcases hMade (keyPlace w.cwd dir) with
        hSame | ⟨_, _, hDirectory⟩
      · exact hSame.symm.trans hKey
      · cases hDirectory.symm.trans hKey
  | keyOnly _ hKeyed _ =>
      exact .inl (hWritten _ hKeyed.here hKey)
  | both _ _ _ hKeyed _ hDone =>
      have hHere :=
        (hDone.elsewhere hOther).trans hKeyed.here
      exact .inl (hWritten _ hHere hKey)

theorem Course.world
    {run : Except Failure Unit × World}
    (hCourse : Course dir m w run) :
    run.2 = { w with files := run.2.files } := by
  cases hCourse <;> rfl

/- Nothing but the two files and the way to them changes. -/
theorem Course.isAsBefore
    {run : Except Failure Unit × World}
    {l : Files.Location}
    (hCourse : Course dir m w run)
    (hKey : l ≠ keyPlace w.cwd dir)
    (hCert : l ≠ certPlace w.cwd dir) :
    IsAsBefore dir w.cwd w.files run.2.files l := by
  cases hCourse with
  | stopped hMade => exact hMade l
  | keyOnly hMade hKeyed _ =>
      unfold IsAsBefore
      rw [hKeyed.elsewhere hKey]
      exact hMade l
  | both _ hMade _ hKeyed _ hDone =>
      unfold IsAsBefore
      rw [hDone.elsewhere hCert, hKeyed.elsewhere hKey]
      exact hMade l

------------------------------------------------------------
-- Writing And Reading
------------------------------------------------------------

/-
  What writing a pair leaves behind, whatever was there: all
  but the two files and the way to them is as it was, the
  key is kept private, and if writing succeeds, then reading
  the two files gives the pair with one kind of line end.
  Only an old certificate that its owner may not read stays
  as closed as it was.
-/
structure LeavesReadable
    (dir : Path)
    (m : Material)
    (w : World)
    (run : Except Failure Unit × World) : Prop where
  world : run.2 = { w with files := run.2.files }
  others :
    ∀ l,
      l ≠ keyPlace w.cwd dir →
      l ≠ certPlace w.cwd dir →
      IsAsBefore dir w.cwd w.files run.2.files l
  key : KeepsKeyPrivate dir m w run
  read :
    ∀ after,
      run = (.ok (), after) →
      (Workspace.readMaterial (keyPath dir).text
          (certPath dir).text).runIn after =
        (readBack dir m
          (w.files.modeAt (certPlace w.cwd dir)
            Files.fileMode), after)
  verbatim :
    m.unified = m ↔
      '\r' ∉ m.key.toList ∧ '\r' ∉ m.cert.toList

/- A pair that is written can be read, and is private. -/
theorem write_reads_back
    (directory : String)
    (m : Material)
    (w : World) :
    LeavesReadable (Path.ofText directory) m w
      ((write (Path.ofText directory) m).runIn w) := by
  have hNormal := Path.isNormal_ofText directory
  have hCourse := write_course hNormal m w
  constructor
  · exact hCourse.world
  · intro l hKey hCert
    exact hCourse.isAsBefore hKey hCert
  · exact hCourse.keepsKeyPrivate
  · intro after hWrite
    rw [hWrite] at hCourse
    exact hCourse.readMaterial hNormal
  · exact Material.unified_eq_self_iff

/- A pair of texts without carriage returns. -/
def plainPair : Material :=
  ⟨"new key\n", "new certificate\n"⟩

/-
  A world with an old certificate that may be written to,
  but not read.
-/
def closedWorld : World where
  files :=
    ⟨[(["certs"], .directory 0o755),
      (["certs", "cert.pem"], .file 0o200 [])]⟩
  cwd := []
  tempDir := "/tmp"

/- The same key is there already, and others may read it. -/
def openWorld : World where
  files :=
    ⟨[(["certs"], .directory 0o755),
      (["certs", "key.pem"],
        .file 0o444
          (Text.Utf8.encodeText plainPair.key))]⟩
  cwd := []
  tempDir := "/tmp"

/-
  So neither is a written pair always read, nor is the key
  always in a file of the owner's only, once it is there.
-/
theorem not_always_read_nor_private :
    (¬ ∀ directory m w after,
      (write (Path.ofText directory) m).runIn w =
        (.ok (), after) →
      ((Workspace.readMaterial
          (keyPath (Path.ofText directory)).text
          (certPath (Path.ofText directory)).text).runIn
        after).1 = .ok m.unified) ∧
    ¬ ∀ directory m w mode,
      ((write (Path.ofText directory) m).runIn
          w).2.files.at?
          (keyPlace w.cwd (Path.ofText directory)) =
        some (.file mode (Text.Utf8.encodeText m.key)) →
      mode = keyMode := by
  constructor
  · intro hAlways
    have hWrite :
        ((write (Path.ofText "certs") plainPair).runIn
          closedWorld).1 = .ok () := by
      rfl
    rcases hRun :
        (write (Path.ofText "certs") plainPair).runIn
          closedWorld with
      ⟨result, after⟩
    rw [hRun] at hWrite
    subst hWrite
    have hNormal := Path.isNormal_ofText "certs"
    have hCourse :=
      write_course hNormal plainPair closedWorld
    rw [hRun] at hCourse
    have hRead := hAlways _ _ _ _ hRun
    rw [hCourse.readMaterial hNormal] at hRead
    have hClosed :
        Files.grants
            (closedWorld.files.modeAt
              (certPlace closedWorld.cwd
                (Path.ofText "certs"))
              Files.fileMode)
            .read =
          false := by
      decide +kernel
    rw [readBack, hClosed] at hRead
    cases hRead
  · intro hAlways
    have hKey :
        ((write (Path.ofText "certs") plainPair).runIn
            openWorld).2.files.at?
            (keyPlace [] (Path.ofText "certs")) =
          some
            (.file 0o444
              (Text.Utf8.encodeText plainPair.key)) := by
      decide +kernel
    have hMode := hAlways "certs" plainPair openWorld _ hKey
    revert hMode
    decide

end Output

end LocalCert
