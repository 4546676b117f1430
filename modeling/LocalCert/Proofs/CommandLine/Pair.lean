import LocalCert.Proofs.CommandLine.Endings
import LocalCert.Proofs.CommandLine.Frame

/-
  What becomes of the two files of the output directory.
  They hold the pair that was issued, or neither has been
  written, or only the key has been written, because the
  certificate could not be opened after it.

  Main declarations:
    * `CommandLine.IsLeftOver`
    * `CommandLine.IsUnwritten`
    * `CommandLine.Leaves`
    * `CommandLine.run_leaves_pair_or_key_only`
-/

------------------------------------------------------------
-- Locations That Are Not Written
------------------------------------------------------------

namespace LocalCert

namespace CommandLine

/-
  Whether a location lies in a new workspace of a run in
  which a workspace could not be removed.
-/
def IsLeftOver
    (o : Options)
    (w after : World)
    (l : Files.Location) : Prop :=
  ¬ w.Cleared after ∧ (prepare o w).InNewWorkspace l

/-
  Whether a location has not been written for the sake of
  an output directory.
-/
def IsUnwritten
    (o : Options)
    (dir : Path)
    (w after : World)
    (l : Files.Location) : Prop :=
  Output.IsAsBefore dir w.cwd w.files after.files l ∨
    IsLeftOver o w after l

section

variable {o : Options}
variable {dir : Path}
variable {w made after : World}
variable {l : Files.Location}

/- Getting a pair changes what is left over only. -/
theorem acquire_changes_leftovers
    (hFiles : w.files.WellFormed)
    (hConfined : (prepare o w).AlwaysConfined)
    (l : Files.Location) :
    ((acquire o).runIn (prepare o w)).2.files.at? l =
        w.files.at? l ∨
      IsLeftOver o w (perform o w).2 l := by
  by_cases hCleared : w.Cleared (perform o w).2
  · have hSame :=
      sameFiles_acquire hFiles (hConfined.confined hFiles)
        hCleared
    rw [hSame.1]
    exact .inl rfl
  · by_cases hNew : (prepare o w).InNewWorkspace l
    · exact .inr ⟨hCleared, hNew⟩
    · have hRestores := restores_acquire o (prepare o w)
      exact .inl (hRestores.outside hFiles hConfined l hNew)

/- What is not written afterwards is not written at all. -/
theorem isUnwritten_of_isAsBefore
    (hMade :
      made.files.at? l = w.files.at? l ∨
        IsLeftOver o w after l)
    (hAfter :
      Output.IsAsBefore dir w.cwd made.files after.files l) :
    IsUnwritten o dir w after l := by
  rcases hMade with hSame | hLeft
  · unfold Output.IsAsBefore at hAfter
    rw [hSame] at hAfter
    exact .inl hAfter
  · exact .inr hLeft

end

------------------------------------------------------------
-- The Two Files
------------------------------------------------------------

/-
  The ways in which a run leaves the key and the certificate
  of an output directory.  Only the key is written where the
  certificate is refused afterwards, and that is told.
-/
inductive Leaves
    (o : Options)
    (dir : Path)
    (w : World) : Result × World → Prop where
  | pair {result : Result} {after : World} {m : Material}
      (hIssued :
        ((acquire o).runIn (prepare o w)).1 = .ok m)
      (hHolds : Output.Holds after.files w.cwd dir m) :
      Leaves o dir w (result, after)
  | nothing {result : Result} {after : World}
      (hKey :
        IsUnwritten o dir w after
          (Output.keyPlace w.cwd dir))
      (hCert :
        IsUnwritten o dir w after
          (Output.certPlace w.cwd dir))
      (hFailed : result ≠ .finished 0) :
      Leaves o dir w (result, after)
  | keyOnly {after : World} {m : Material}
      {r : Files.Refusal}
      (hIssued :
        ((acquire o).runIn (prepare o w)).1 = .ok m)
      (hKey :
        after.files.at? (Output.keyPlace w.cwd dir) =
          some
            (.file Output.keyMode
              (Text.Utf8.encodeText m.key)))
      (hCert :
        IsUnwritten o dir w after
          (Output.certPlace w.cwd dir))
      (hRefused :
        after.files.openForWriting w.cwd Files.fileMode
          (Output.certPath dir).text = .error r)
      (hTold :
        ∃ before : World,
          after =
            before.report
              (.writingFailed
                (.ofRefusal r
                  (Output.certPath dir).text))) :
      Leaves o dir w (.finished 1, after)

section

variable {o : Options}
variable {w after : World}
variable {f : Failure}

/- A failure that is told ends the program with one. -/
theorem perform_of_told
    {e : Event}
    (hRun :
      (fulfil o).runIn (prepare o w) = (.error f, after))
    (hTold : eventOf? f = some e) :
    perform o w = (.finished 1, after.report e) := by
  simp only [perform, hRun, hTold]

/- A run that fails does not finish well. -/
theorem perform_ne_finished
    (hRun :
      (fulfil o).runIn (prepare o w) = (.error f, after)) :
    (perform o w).1 ≠ .finished 0 := by
  intro hFinished
  rw [perform_finished hFinished] at hRun
  cases hRun

/- Of a failed run, the files are those it failed with. -/
theorem perform_files
    (hRun :
      (fulfil o).runIn (prepare o w) = (.error f, after)) :
    (perform o w).2.files = after.files := by
  have hSame := fulfil_perform sameFiles_report o w
  rw [hRun] at hSame
  exact hSame.1

end

section

variable {o : Options}
variable {dir : Path}
variable {m : Material}
variable {w made written : World}
variable
  (hAcquire :
    (acquire o).runIn (prepare o w) = (.ok m, made))
variable (hDir : o.outputDir = some dir)

include hAcquire hDir

/- With a pair and a directory, the pair is delivered. -/
theorem runIn_fulfil :
    (fulfil o).runIn (prepare o w) =
      (deliver dir m).runIn made := by
  rw [fulfil_eq, Act.runIn_bind_ok hAcquire, finish, hDir]

/- A pair that has been written is left there. -/
theorem leaves_of_written
    (hHere : made.cwd = w.cwd)
    (hEnds : Output.Ends dir m made (.ok (), written))
    (hWrite :
      (Output.write dir m).runIn made = (.ok (), written)) :
    Leaves o dir w (perform o w) := by
  have hDelivered := sameFiles_deliver hWrite
  have hAfter := fulfil_perform sameFiles_report o w
  rw [runIn_fulfil hAcquire hDir] at hAfter
  have hFiles := (trans_of SameFiles hDelivered hAfter).1
  cases hEnds with
  | both hHolds =>
      rw [← hFiles, hHere] at hHolds
      exact .pair (congrArg Prod.fst hAcquire) hHolds

/- A pair that could not be written is left in two ways. -/
theorem leaves_of_failure
    {f : Failure}
    (hHere : made.cwd = w.cwd)
    (hMade :
      ∀ l,
        made.files.at? l = w.files.at? l ∨
          IsLeftOver o w (perform o w).2 l)
    (hEnds : Output.Ends dir m made (.error f, written))
    (hWrite :
      (Output.write dir m).runIn made =
        (.error f, written)) :
    Leaves o dir w (perform o w) := by
  have hRun :
      (fulfil o).runIn (prepare o w) =
        (.error f, written) := by
    rw [runIn_fulfil hAcquire hDir, deliver,
      Act.runIn_bind_error hWrite]
  have hFiles := perform_files hRun
  have hUnwritten :
      ∀ l,
        Output.IsAsBefore dir made.cwd made.files
          written.files l →
        IsUnwritten o dir w (perform o w).2 l := by
    intro l hBefore
    rw [hHere, ← hFiles] at hBefore
    exact isUnwritten_of_isAsBefore (hMade l) hBefore
  cases hEnds with
  | neither hBefore =>
      apply Leaves.nothing
      · exact hUnwritten _ (hBefore _)
      · exact hUnwritten _ (hBefore _)
      · exact perform_ne_finished hRun
  | @keyOnly _ r hKey hCert hRefused =>
      have hCertUnwritten := hUnwritten _ hCert
      rw [hHere] at hKey hRefused hCertUnwritten
      rw [← hFiles] at hKey hRefused
      have hDone := perform_of_told hRun (eventOf?_fault _)
      rw [hDone] at hKey hRefused hCertUnwritten ⊢
      apply Leaves.keyOnly (congrArg Prod.fst hAcquire) hKey
        hCertUnwritten hRefused
      exact ⟨written, rfl⟩

end

------------------------------------------------------------
-- The Program
------------------------------------------------------------

theorem perform_leaves
    {o : Options}
    {dir : Path}
    {w : World}
    (hDir : o.outputDir = some dir)
    (hNormal : dir.IsNormal)
    (hKept :
      ∀ l,
        ((acquire o).runIn (prepare o w)).2.files.at? l =
            w.files.at? l ∨
          IsLeftOver o w (perform o w).2 l) :
    Leaves o dir w (perform o w) := by
  have hHere := (restores_acquire o (prepare o w)).leads.cwd
  rcases hAcquire : (acquire o).runIn (prepare o w) with
    ⟨issued, made⟩
  rw [hAcquire] at hKept hHere
  cases issued with
  | error f =>
      have hRun :
          (fulfil o).runIn (prepare o w) =
            (.error f, made) := by
        rw [fulfil_eq, Act.runIn_bind_error hAcquire]
      have hUnwritten :
          ∀ l, IsUnwritten o dir w (perform o w).2 l := by
        intro l
        refine isUnwritten_of_isAsBefore (hKept l) (.inl ?_)
        rw [perform_files hRun]
      exact .nothing (hUnwritten _) (hUnwritten _)
        (perform_ne_finished hRun)
  | ok m =>
      have hEnds := Output.write_ends hNormal m made
      rcases hWrite : (Output.write dir m).runIn made with
        ⟨result, written⟩
      rw [hWrite] at hEnds
      cases result with
      | ok _ =>
          exact leaves_of_written hAcquire hDir hHere hEnds
            hWrite
      | error f =>
          exact leaves_of_failure hAcquire hDir hHere hKept
            hEnds hWrite

/- Without an output directory nothing is written. -/
theorem perform_nowhere
    {o : Options}
    {w : World}
    (hNone : o.outputDir = none) :
    (perform o w).1 ≠ .finished 0 ∧
      (perform o w).2.files =
        ((acquire o).runIn (prepare o w)).2.files := by
  have hRun :
      ∃ f,
        (fulfil o).runIn (prepare o w) =
          (.error f,
            ((acquire o).runIn (prepare o w)).2) := by
    rw [fulfil_eq, Act.runIn_bind]
    rcases (acquire o).runIn (prepare o w) with
      ⟨issued, made⟩
    cases issued with
    | error f => exact ⟨f, rfl⟩
    | ok m =>
        refine ⟨.noDirectory, ?_⟩
        simp only [finish, hNone]
        rfl
  rcases hRun with ⟨f, hRun⟩
  exact ⟨perform_ne_finished hRun, perform_files hRun⟩

/-
  With every command line that is accepted, the two files of
  the output directory hold the issued pair, or neither is
  written and the program fails, or the certificate is
  refused after the key has been written: then the new key
  stands beside what was there, and the program tells of it
  and answers one.
-/
theorem run_leaves_pair_or_key_only
    (arguments : List String)
    (o : Options)
    (w : World)
    (hOptions : options arguments = .ok o)
    (hFiles : w.files.WellFormed)
    (hConfined : (prepare o w).AlwaysConfined) :
    (∀ dir ∈ o.outputDir,
      Leaves o dir w (run arguments w)) ∧
    (o.outputDir = none →
      (run arguments w).1 ≠ .finished 0 ∧
        ∀ l,
          (run arguments w).2.files.at? l = w.files.at? l ∨
            IsLeftOver o w (run arguments w).2 l) := by
  have hKept :=
    acquire_changes_leftovers hFiles hConfined
  simp only [run, hOptions]
  constructor
  · intro dir hDir
    exact perform_leaves hDir
      (isNormal_outputDir hOptions dir hDir) hKept
  · intro hNone
    rcases perform_nowhere (w := w) hNone with
      ⟨hFailed, hSame⟩
    refine ⟨hFailed, ?_⟩
    intro l
    rw [hSame]
    exact hKept l

------------------------------------------------------------
-- An Old Certificate That Is Guarded
------------------------------------------------------------

/- The directory that pairs are left in by default. -/
def defaultDir : Path :=
  ⟨.relative, ["certs"]⟩

/- An old certificate, in bytes. -/
def oldCertificate : List UInt8 :=
  Text.Utf8.encodeText "old certificate\n"

/-
  A world with an old pair in the default directory.  The
  key may be written, the certificate may not.
-/
def guardedWorld : World where
  files :=
    ⟨[(["tmp"], .directory 0o777),
      (["certs"], .directory 0o755),
      (["certs", "key.pem"],
        .file 0o600 (Text.Utf8.encodeText "old key\n")),
      (["certs", "cert.pem"], .file 0o400 oldCertificate)]⟩
  cwd := []
  tempDir := "/tmp"

theorem guardedWorld_wellFormed :
    guardedWorld.files.WellFormed := by
  decide

/- The old certificate stays, and the old key does not. -/
theorem run_guardedWorld :
    let after := (run [] guardedWorld).2
    after.files.at? (Output.certPlace [] defaultDir) =
        some (.file 0o400 oldCertificate) ∧
      after.files.at? (Output.keyPlace [] defaultDir) ≠
        guardedWorld.files.at?
          (Output.keyPlace [] defaultDir) := by
  decide +kernel

/- The pair that is issued has another certificate. -/
theorem issued_guardedWorld
    {m : Material}
    (hIssued :
      ((acquire {}).runIn (prepare {} guardedWorld)).1 =
        .ok m) :
    Text.Utf8.encodeText m.cert ≠ oldCertificate := by
  have hCerts :
      ((acquire {}).runIn
          (prepare {} guardedWorld)).1.toOption.map
            (fun m => Text.Utf8.encodeText m.cert) ≠
        some oldCertificate := by
    decide +kernel
  intro hOld
  apply hCerts
  rw [hIssued]
  exact congrArg some hOld

/- The new key is left beside the old certificate. -/
theorem guarded_certificate_leaves_key_only :
    options [] = .ok {} ∧
      guardedWorld.files.WellFormed ∧
      (prepare {} guardedWorld).AlwaysConfined ∧
      Leaves {} defaultDir guardedWorld
        (run [] guardedWorld) := by
  have hOptions : options [] = .ok {} := rfl
  have hConfined :
      (prepare {} guardedWorld).AlwaysConfined := by
    refine World.alwaysConfined_of_plain (by decide) ?_
    rintro b ⟨⟩
  have hLeaves :=
    (run_leaves_pair_or_key_only [] {} guardedWorld
      hOptions guardedWorld_wellFormed hConfined).1
  exact ⟨hOptions, guardedWorld_wellFormed, hConfined,
    hLeaves defaultDir rfl⟩

/-
  So it is not the case that always the two files hold the
  issued pair or are what they were.
-/
theorem not_pair_or_as_before :
    ¬ ∀ arguments o w,
      options arguments = .ok o →
      w.files.WellFormed →
      (∀ b ∈ w.script, ∀ f ∈ b.files,
        Files.IsPlainName f.1) →
      ∀ dir ∈ o.outputDir,
        let after := (run arguments w).2.files
        (∃ m,
          ((acquire o).runIn (prepare o w)).1 = .ok m ∧
            Output.Holds after w.cwd dir m) ∨
          after.at? (Output.keyPlace w.cwd dir) =
              w.files.at? (Output.keyPlace w.cwd dir) ∧
            after.at? (Output.certPlace w.cwd dir) =
              w.files.at? (Output.certPlace w.cwd dir) := by
  intro hAlways
  have hPlain :
      ∀ b ∈ guardedWorld.script, ∀ f ∈ b.files,
        Files.IsPlainName f.1 := by
    rintro b ⟨⟩
  rcases run_guardedWorld with ⟨hCert, hKey⟩
  rcases hAlways [] {} guardedWorld rfl
      guardedWorld_wellFormed hPlain defaultDir rfl with
    ⟨m, hIssued, hHolds⟩ | ⟨hSame, _⟩
  · rcases hHolds.cert with ⟨mode, hNew⟩
    have hNodes := hNew.symm.trans hCert
    simp only [Option.some.injEq,
      Files.Node.file.injEq] at hNodes
    exact issued_guardedWorld hIssued hNodes.2
  · exact hKey hSame

end CommandLine

end LocalCert
