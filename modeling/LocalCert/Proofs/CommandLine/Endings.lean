import LocalCert.Proofs.CommandLine.Course
import LocalCert.Proofs.World.Failing

/-
  How the program ends.  Where tools end in ordinary ways it
  answers zero or one, or stops at its options, with two
  exceptions: there is no directory for the pair, or the
  pair has been written and its certificate then shows a
  defect that is not told as a wrong value.

  Main declarations:
    * `CommandLine.eventOf?_ne_none`
    * `CommandLine.Breaks`
    * `CommandLine.breaks_of_finish`
    * `CommandLine.run_breaks_iff`
-/

------------------------------------------------------------
-- Failures That Are Told
------------------------------------------------------------

namespace LocalCert

namespace CommandLine

/- An orderly failure is told. -/
theorem eventOf?_ne_none
    {f : Failure}
    (hOrderly : f.IsOrderly) :
    eventOf? f ≠ none := by
  have hTold :
      (f.kind.isA .provisioning || f.kind.isA .value) =
        true :=
    Bool.or_eq_true_iff.mpr hOrderly
  simp [eventOf?, hTold]

/- A fault of the files is told as one of writing. -/
theorem eventOf?_fault
    (f : Files.Fault) :
    eventOf? (.fault f) = some (.writingFailed f) := by
  have hOther :
      ∀ c,
        (Failure.Kind.isA (.fault c) .provisioning ||
          Failure.Kind.isA (.fault c) .value) = false := by
    intro c
    cases c <;> rfl
  exact if_neg (by simp [Failure.kind, hOther])

/- Of the defects of a certificate, wrong values are told. -/
theorem eventOf?_inspection
    (d : Inspection.Defect) :
    eventOf? (.inspection d) = none ↔
      d ≠ .malformed ∧ d ≠ .commonNameNotText := by
  cases d <;> decide

/- Whatever goes wrong in writing is told. -/
theorem eventOf?_of_write
    {dir : Path}
    {m : Material}
    {w after : World}
    {f : Failure}
    (hWrite :
      (Output.write dir m).runIn w = (.error f, after)) :
    eventOf? f ≠ none := by
  have hTree :
      ∀ {path step} {v made : World},
        (Output.onTree path step).runIn v =
          (.error f, made) →
        eventOf? f ≠ none := by
    intro path step v made hStep
    rw [Output.onTree, Act.runIn_of] at hStep
    split at hStep <;> cases hStep
    rw [eventOf?_fault]
    exact Option.some_ne_none _
  unfold Output.write at hWrite
  rcases Act.runIn_bind_eq_error hWrite with
    hMake | ⟨_, made, _, hRest⟩
  · rw [Output.makeDirectory, Act.runIn_of] at hMake
    split at hMake
    · cases hMake
      exact eventOf?_ne_none (.inr rfl)
    · split at hMake <;> cases hMake
      rw [eventOf?_fault]
      exact Option.some_ne_none _
  · rcases Act.runIn_bind_eq_error hRest with
      hKey | ⟨_, keyed, _, hCert⟩
    · exact hTree hKey
    · exact hTree hCert

------------------------------------------------------------
-- The Second Half
------------------------------------------------------------

/- What is found when an issued certificate is inspected. -/
def inspected
    (cert : String) :
    Except Inspection.Defect Certificate.Summary :=
  (Certificate.ofPem (Text.Utf8.encodeText cert)).bind
    Certificate.summary

theorem runIn_inspect
    (cert : String)
    (w : World) :
    (inspect cert).runIn w =
      ((inspected cert).mapError Failure.inspection, w) := by
  unfold inspect inspected
  cases (Certificate.ofPem (Text.Utf8.encodeText cert)).bind
      Certificate.summary <;> rfl

/- Telling of a pair does not fail. -/
theorem runIn_tell
    (dir : Path)
    (s : Certificate.Summary)
    (w : World) :
    ∃ after, (tell dir s).runIn w = (.ok (), after) :=
  ⟨_, rfl⟩

/-
  The ways in which a pair that has been issued ends the
  program without an answer: there is no directory for it,
  or it has been written and its certificate shows a defect
  that is not told.
-/
inductive Breaks
    (o : Options)
    (m : Material)
    (w : World) : Failure → Prop where
  | nowhere
      (hDir : o.outputDir = none) :
      Breaks o m w .noDirectory
  | defective
      {dir : Path}
      {d : Inspection.Defect}
      (hDir : o.outputDir = some dir)
      (hWrite : ((Output.write dir m).runIn w).1 = .ok ())
      (hDefect : inspected m.cert = .error d)
      (hUntold : d ≠ .malformed ∧ d ≠ .commonNameNotText) :
      Breaks o m w (.inspection d)

/- The second half fails untold in these ways only. -/
theorem breaks_of_finish
    {o : Options}
    {m : Material}
    {w after : World}
    {f : Failure}
    (hRun : (finish o m).runIn w = (.error f, after))
    (hUntold : eventOf? f = none) :
    Breaks o m w f := by
  unfold finish at hRun
  cases hDir : o.outputDir with
  | none =>
      rw [hDir] at hRun
      cases hRun
      exact .nowhere hDir
  | some dir =>
      simp only [hDir, deliver] at hRun
      rcases Act.runIn_bind_eq_error hRun with
        hWrite | ⟨_, written, hWrite, hRest⟩
      · exact (eventOf?_of_write hWrite hUntold).elim
      · rcases Act.runIn_bind_eq_error hRest with
          hInspect | ⟨s, told, _, hTell⟩
        · rw [runIn_inspect] at hInspect
          cases hFound : inspected m.cert with
          | ok s =>
              rw [hFound] at hInspect
              cases hInspect
          | error d =>
              rw [hFound] at hInspect
              cases hInspect
              refine .defective hDir ?_ hFound ?_
              · rw [hWrite]
              · exact (eventOf?_inspection d).mp hUntold
        · rcases runIn_tell dir s told with ⟨_, hTold⟩
          rw [hTold] at hTell
          cases hTell

namespace Breaks

variable {o : Options}
variable {m : Material}
variable {w : World}
variable {f : Failure}

/- In each of these ways the second half fails. -/
theorem fails_finish
    (hBreaks : Breaks o m w f) :
    ((finish o m).runIn w).1 = .error f := by
  cases hBreaks with
  | nowhere hDir =>
      rw [finish, hDir]
      rfl
  | @defective dir d hDir hWrite hDefect _ =>
      rcases hWritten : (Output.write dir m).runIn w with
        ⟨result, written⟩
      rw [hWritten] at hWrite
      subst hWrite
      have hInspect :
          (inspect m.cert).runIn written =
            (.error (.inspection d), written) := by
        rw [runIn_inspect, hDefect]
        rfl
      simp only [finish, hDir, deliver]
      rw [Act.runIn_bind_ok hWritten,
        Act.runIn_bind_error hInspect]

/- And the failure is not told. -/
theorem untold
    (hBreaks : Breaks o m w f) :
    eventOf? f = none := by
  cases hBreaks with
  | nowhere _ => rfl
  | defective _ _ _ hUntold =>
      exact (eventOf?_inspection _).mpr hUntold

end Breaks

------------------------------------------------------------
-- The Program
------------------------------------------------------------

/- What escapes is a failure that is not told. -/
theorem perform_failed_iff
    (o : Options)
    (w : World)
    (f : Failure) :
    (perform o w).1 = .failed f ↔
      ((fulfil o).runIn (prepare o w)).1 = .error f ∧
        eventOf? f = none := by
  rcases perform_cases o w with
    ⟨after, hRun, hDone⟩ |
    ⟨g, e, after, hRun, hEvent, hTold⟩ |
    ⟨g, after, hRun, hEvent, hFailed⟩
  · simp [hRun, hDone]
  · rw [hRun, hTold]
    constructor
    · intro hFailed
      cases hFailed
    · rintro ⟨⟨⟩, hNone⟩
      rw [hEvent] at hNone
      cases hNone
  · rw [hRun, hFailed]
    constructor
    · rintro ⟨⟩
      exact ⟨rfl, hEvent⟩
    · rintro ⟨⟨⟩, _⟩
      rfl

/- A failure of the second half that is not told escapes. -/
theorem perform_failed_of_breaks
    {o : Options}
    {m : Material}
    {w made : World}
    {f : Failure}
    (hAcquire :
      (acquire o).runIn (prepare o w) = (.ok m, made))
    (hBreaks : Breaks o m made f) :
    (perform o w).1 = .failed f := by
  rw [perform_failed_iff, fulfil_eq,
    Act.runIn_bind_ok hAcquire]
  exact ⟨hBreaks.fails_finish, hBreaks.untold⟩

/- What escapes where tools end in ordinary ways. -/
theorem perform_failed_cases
    {o : Options}
    {w : World}
    {f : Failure}
    (hOrdinary : w.Ordinary)
    (hFailed : (perform o w).1 = .failed f) :
    ∃ m made,
      (acquire o).runIn (prepare o w) = (.ok m, made) ∧
        Breaks o m made f := by
  rw [perform_failed_iff, fulfil_eq] at hFailed
  rcases hFailed with ⟨hFails, hUntold⟩
  have hOrderly :
      Act.FailsOnly Failure.IsOrderly (acquire o) := by
    refine Act.FailsOnly.bind (Act.FailsOnly.report _) ?_
    intro _
    exact Provisioner.failsOnly_provision _ _
  rcases hAcquire : (acquire o).runIn (prepare o w) with
    ⟨result, made⟩
  cases result with
  | ok m =>
      rw [Act.runIn_bind_ok hAcquire] at hFails
      refine ⟨m, made, rfl, ?_⟩
      exact breaks_of_finish (Prod.ext hFails rfl) hUntold
  | error g =>
      rw [Act.runIn_bind_error hAcquire] at hFails
      cases hFails
      have hTold := (hOrderly (prepare o w) hOrdinary).2 f
      rw [hAcquire] at hTold
      exact (eventOf?_ne_none (hTold rfl) hUntold).elim

/-
  The program answers zero or one, or stops at its options,
  or a failure escapes.  A failure escapes exactly where a
  pair has been issued that breaks the program.
-/
theorem run_breaks_iff
    (arguments : List String)
    (w : World)
    (hOrdinary : w.Ordinary) :
    ((run arguments w).1 = .finished 0 ∨
      (run arguments w).1 = .finished 1 ∨
      (∃ s,
        options arguments = .error s ∧
          (run arguments w).1 = .stopped s) ∨
      ∃ f, (run arguments w).1 = .failed f) ∧
    ∀ f,
      (run arguments w).1 = .failed f ↔
        ∃ o m made,
          options arguments = .ok o ∧
            (acquire o).runIn (prepare o w) =
              (.ok m, made) ∧
            Breaks o m made f := by
  unfold run
  cases hOptions : options arguments with
  | error s => simp
  | ok o =>
      constructor
      · rcases perform_cases o w with
          ⟨_, _, hDone⟩ | ⟨_, _, _, _, _, hTold⟩ |
            ⟨f, _, _, _, hFailed⟩
        · exact .inl (congrArg Prod.fst hDone)
        · exact .inr (.inl (congrArg Prod.fst hTold))
        · refine .inr (.inr (.inr ⟨f, ?_⟩))
          exact congrArg Prod.fst hFailed
      · intro f
        constructor
        · intro hFailed
          rcases perform_failed_cases hOrdinary hFailed with
            ⟨m, made, hAcquire, hBreaks⟩
          exact ⟨o, m, made, rfl, hAcquire, hBreaks⟩
        · rintro ⟨o, m, made, ⟨⟩, hAcquire, hBreaks⟩
          exact perform_failed_of_breaks hAcquire hBreaks

------------------------------------------------------------
-- A Repeated Extension
------------------------------------------------------------

/-
  A certificate in which the extension of alternative names
  occurs twice.
-/
def repeatedLines : List String :=
  ["-----BEGIN CERTIFICATE-----",
    "MGUwWaADAgECAgEBMAUGAytlcDAAMB4XDTI0MDEwMjAzMDQwNVoXDTI0MDIwMTAz",
    "MDQwNVowADAKMAUGAytlcAMBAKMYMBYwCQYDVR0RBAIwADAJBgNVHREEAjAAMAUG",
    "AytlcAMBAA==",
    "-----END CERTIFICATE-----"]

/- A world in which the first tool issues it. -/
def repeatedWorld : World where
  files := ⟨[(["tmp"], .directory 0o777)]⟩
  cwd := []
  tempDir := "/tmp"
  script :=
    let text :=
      repeatedLines.flatMap (fun l => l.toList ++ ['\n'])
    let content : Files.Content :=
      { body := .bytes (Text.Utf8.encode text) }
    [{ files := [("cert.pem", content)] }]

theorem repeatedWorld_ordinary :
    repeatedWorld.Ordinary := by
  intro b hb
  rw [List.mem_singleton.mp hb]
  rfl

theorem run_repeatedWorld :
    (run [] repeatedWorld).1 =
      .failed (.inspection .duplicateExtension) := by
  decide +kernel

/- It is issued and written, and breaks the program. -/
theorem repeated_extension_breaks :
    repeatedWorld.Ordinary ∧
      ∃ o m made,
        options [] = .ok o ∧
          (acquire o).runIn (prepare o repeatedWorld) =
            (.ok m, made) ∧
          Breaks o m made
            (.inspection .duplicateExtension) := by
  refine ⟨repeatedWorld_ordinary, ?_⟩
  have hBreaks :=
    (run_breaks_iff [] repeatedWorld
      repeatedWorld_ordinary).2
  exact (hBreaks _).mp run_repeatedWorld

/- So a failure can escape, though tools end as they may. -/
theorem not_always_answered :
    ¬ ∀ arguments w,
      World.Ordinary w →
      (run arguments w).1 = .finished 0 ∨
        (run arguments w).1 = .finished 1 ∨
        ∃ s, (run arguments w).1 = .stopped s := by
  intro hAnswered
  have hEnd :=
    hAnswered [] repeatedWorld repeatedWorld_ordinary
  rw [run_repeatedWorld] at hEnd
  rcases hEnd with hDone | hTold | ⟨s, hStopped⟩
  · cases hDone
  · cases hTold
  · cases hStopped

end CommandLine

end LocalCert
