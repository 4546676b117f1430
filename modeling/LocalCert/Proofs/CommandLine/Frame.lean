import LocalCert.Proofs.CommandLine.Course
import LocalCert.Proofs.CommandLine.Options
import LocalCert.Proofs.Output

/-
  What the program may change in the files.  Without a pair
  it leaves them as they are; with one it touches the output
  directory only, however it ends, and when it finishes the
  pair is there.

  Main declarations:
    * `CommandLine.issuedPair?`
    * `CommandLine.run_leaves_pair_only`
-/

------------------------------------------------------------
-- After A Pair Has Been Issued
------------------------------------------------------------

namespace LocalCert

namespace CommandLine

/- Whether the files, and where paths start, are the same. -/
def SameFiles
    (w v : World) : Prop :=
  v.files = w.files ∧ v.cwd = w.cwd

instance : IsPreorder World SameFiles where
  refl _ := ⟨rfl, rfl⟩
  trans _ _ _ hFirst hNext :=
    ⟨hNext.1.trans hFirst.1, hNext.2.trans hFirst.2⟩

theorem sameFiles_report
    (w : World)
    (e : Event) :
    SameFiles w (w.report e) :=
  ⟨World.report_files w e, World.report_cwd w e⟩

/- Leaving a pair touches the output directory only. -/
theorem keeps_touches_finish
    {o : Options}
    {dir : Path}
    (m : Material)
    (hDir : o.outputDir = some dir)
    (hNormal : dir.IsNormal) :
    Act.Keeps (Output.Touches dir) (finish o m) := by
  apply keeps_finish
  · intro w e
    rcases sameFiles_report w e with ⟨hFiles, hHere⟩
    exact Output.touches_of_eq hHere hFiles
  · intro d hd
    rw [hDir] at hd
    cases hd
    exact Output.keeps_touches_write hNormal m

/- Once a pair is written, the files stay as they are. -/
theorem sameFiles_deliver
    {dir : Path}
    {m : Material}
    {w written : World}
    (hWrite :
      (Output.write dir m).runIn w = (.ok (), written)) :
    SameFiles written ((deliver dir m).runIn w).2 := by
  have hKeeps :
      Act.Keeps SameFiles
        (do
          let s ← inspect m.cert
          tell dir s) :=
    Act.Keeps.bind (keeps_inspect _)
      (keeps_tell sameFiles_report dir)
  rw [deliver, Act.runIn_bind_ok hWrite]
  exact hKeeps written

/- A pair that has been left without a failure is there. -/
theorem holds_of_finish
    {o : Options}
    {m : Material}
    {w after : World}
    (hNormal : ∀ dir ∈ o.outputDir, dir.IsNormal)
    (hFinish : (finish o m).runIn w = (.ok (), after)) :
    ∃ dir ∈ o.outputDir,
      Output.Holds after.files after.cwd dir m := by
  unfold finish at hFinish
  cases hDir : o.outputDir with
  | none =>
      rw [hDir] at hFinish
      cases hFinish
  | some dir =>
      rw [hDir] at hFinish
      refine ⟨dir, rfl, ?_⟩
      rcases Act.runIn_bind_eq_ok hFinish with
        ⟨_, written, hWrite, _⟩
      have hHolds :=
        Output.holds_of_write (hNormal dir hDir) hWrite
      have hSame := sameFiles_deliver hWrite
      rw [hFinish] at hSame
      rw [hSame.1, hSame.2]
      exact hHolds

------------------------------------------------------------
-- The Program
------------------------------------------------------------

/-
  The options of a command line that is accepted, and the
  pair that is issued for it, if there is one.
-/
def issuedPair?
    (arguments : List String)
    (w : World) : Option (Options × Material) :=
  match options arguments with
  | .error _ => none
  | .ok o =>
      match ((acquire o).runIn (prepare o w)).1 with
      | .error _ => none
      | .ok m => some (o, m)

/- The status is zero only if nothing failed. -/
theorem perform_finished
    {o : Options}
    {w : World}
    (hFinished : (perform o w).1 = .finished 0) :
    (fulfil o).runIn (prepare o w) =
      (.ok (), (perform o w).2) := by
  rcases perform_cases o w with
    ⟨after, hRun, hDone⟩ | ⟨f, e, after, _, _, hTold⟩ |
      ⟨f, after, _, _, hFailed⟩
  · rw [hRun, hDone]
  · rw [hTold] at hFinished
    cases hFinished
  · rw [hFailed] at hFinished
    cases hFinished

/- Getting a pair leaves no trace in the files. -/
theorem sameFiles_acquire
    {o : Options}
    {w : World}
    (hFiles : w.files.WellFormed)
    (hConfined : (prepare o w).Confined)
    (hCleared : w.Cleared (perform o w).2) :
    SameFiles w ((acquire o).runIn (prepare o w)).2 := by
  have hRestores := restores_acquire o (prepare o w)
  have hFaults := perform_meetsNone o w
  have hRemoved :
      (prepare o w).Cleared
        ((acquire o).runIn (prepare o w)).2 := by
    unfold World.Cleared World.MeetsNone at *
    rw [hFaults] at hCleared
    exact hCleared
  refine ⟨?_, hRestores.leads.cwd⟩
  exact hRestores.files hFiles hConfined hRemoved

/- What has been left when the program is done. -/
theorem perform_leaves_pair_only
    {o : Options}
    {m : Material}
    {w made : World}
    (hNormal : ∀ dir ∈ o.outputDir, dir.IsNormal)
    (hAcquire :
      (acquire o).runIn (prepare o w) = (.ok m, made))
    (hMade : SameFiles w made) :
    (∀ l,
      (perform o w).2.files.at? l = w.files.at? l ∨
        ∃ dir ∈ o.outputDir,
          Output.MayTouch w.files w.cwd dir l) ∧
    ((perform o w).1 = .finished 0 →
      ∃ dir ∈ o.outputDir,
        Output.Holds (perform o w).2.files w.cwd dir m) := by
  have hFulfil :
      (fulfil o).runIn (prepare o w) =
        (finish o m).runIn made := by
    rw [fulfil_eq, Act.runIn_bind_ok hAcquire]
  have hAfter := fulfil_perform sameFiles_report o w
  rw [hFulfil] at hAfter
  refine ⟨?_, ?_⟩
  · intro l
    rw [hAfter.1]
    cases hDir : o.outputDir with
    | none =>
        refine .inl ?_
        rw [finish, hDir, Act.runIn_fail, hMade.1]
    | some dir =>
        have hTouches :=
          (keeps_touches_finish m hDir
            (hNormal dir hDir) made).2 l
        rw [hMade.1, hMade.2] at hTouches
        rcases hTouches with hSame | hTouched
        · exact .inl hSame
        · exact .inr ⟨dir, rfl, hTouched⟩
  · intro hFinished
    have hDone := perform_finished hFinished
    rw [hFulfil] at hDone
    rcases holds_of_finish hNormal hDone with
      ⟨dir, hDir, hHolds⟩
    have hHere :=
      (keeps_touches_finish m hDir (hNormal dir hDir) made).1
    rw [hDone, hMade.2] at hHere
    rw [hHere] at hHolds
    exact ⟨dir, hDir, hHolds⟩

/-
  Without a pair the files are as they were, and the program
  does not finish well.  With one, only the output directory
  with its two files, and what was missing on the way to it,
  can have changed, however the program ends; if it finishes
  well, the two files hold the pair.
-/
theorem run_leaves_pair_only
    (arguments : List String)
    (w : World)
    (hFiles : w.files.WellFormed)
    (hConfined :
      ∀ o,
        options arguments = .ok o →
        (prepare o w).Confined)
    (hCleared : w.Cleared (run arguments w).2) :
    (issuedPair? arguments w = none →
      (run arguments w).2.files = w.files ∧
        (run arguments w).1 ≠ .finished 0) ∧
    ∀ o m,
      issuedPair? arguments w = some (o, m) →
      (∀ l,
        (run arguments w).2.files.at? l = w.files.at? l ∨
          ∃ dir ∈ o.outputDir,
            Output.MayTouch w.files w.cwd dir l) ∧
      ((run arguments w).1 = .finished 0 →
        ∃ dir ∈ o.outputDir,
          Output.Holds (run arguments w).2.files w.cwd dir
            m) := by
  unfold run issuedPair? at *
  cases hOptions : options arguments with
  | error s => exact ⟨fun _ => ⟨rfl, by simp⟩, by simp⟩
  | ok p =>
      rw [hOptions] at hCleared
      have hSame :=
        sameFiles_acquire hFiles (hConfined p hOptions)
          hCleared
      rcases hAcquire : (acquire p).runIn (prepare p w) with
        ⟨result, made⟩
      rw [hAcquire] at hSame
      simp only [hAcquire]
      cases result with
      | ok issued =>
          refine ⟨by simp, ?_⟩
          rintro o m ⟨⟩
          exact perform_leaves_pair_only
            (isNormal_outputDir hOptions) hAcquire hSame
      | error f =>
          refine ⟨fun _ => ?_, by simp⟩
          have hFulfil :
              (fulfil p).runIn (prepare p w) =
                (.error f, made) := by
            rw [fulfil_eq, Act.runIn_bind_error hAcquire]
          have hAfter := fulfil_perform sameFiles_report p w
          rw [hFulfil] at hAfter
          refine ⟨hAfter.1.trans hSame.1, ?_⟩
          intro hFinished
          rw [perform_finished hFinished] at hFulfil
          cases hFulfil

/- A pair whose certificate cannot be read is left as well. -/
theorem run_leaves_unreadable_pair_only :
    let w : World :=
      { files := ⟨[(["tmp"], .directory 0o777)]⟩
        cwd := []
        tempDir := "/tmp" }
    let arguments := ["--output-dir", "out/new"]
    w.files.WellFormed ∧
      (∀ o,
        options arguments = .ok o →
        (prepare o w).Confined) ∧
      w.Cleared (run arguments w).2 ∧
      ∃ o m,
        issuedPair? arguments w = some (o, m) ∧
          ∀ l,
            (run arguments w).2.files.at? l =
                w.files.at? l ∨
              ∃ dir ∈ o.outputDir,
                Output.MayTouch w.files w.cwd dir l := by
  intro w arguments
  have hFiles : w.files.WellFormed := by decide
  have hConfined :
      ∀ o,
        options arguments = .ok o →
        (prepare o w).Confined := by
    rintro o ⟨⟩
    exact World.confined_of_plain hFiles (by decide)
      (by decide)
  have hCleared : w.Cleared (run arguments w).2 := by
    decide +kernel
  have hIssued : (issuedPair? arguments w).isSome := by
    decide +kernel
  rcases Option.isSome_iff_exists.mp hIssued with
    ⟨⟨o, m⟩, hPair⟩
  have hRun :=
    run_leaves_pair_only arguments w hFiles hConfined
      hCleared
  exact
    ⟨hFiles, hConfined, hCleared, o, m, hPair,
      (hRun.2 o m hPair).1⟩

end CommandLine

end LocalCert
