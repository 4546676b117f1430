import LocalCert.CommandLine.Run
import LocalCert.Proofs.Session.Restoring

/-
  The course of the program: first it gets a pair, then it
  leaves the pair where it is asked for.  Workspaces are
  made and removed in the first half only.

  Main declarations:
    * `CommandLine.fulfil_eq`
    * `CommandLine.keeps_finish`
    * `CommandLine.relates_finish`
    * `CommandLine.perform_cases`
    * `CommandLine.perform_relates`
    * `CommandLine.perform_meetsNone`
    * `CommandLine.restores_acquire`
-/

------------------------------------------------------------
-- Removals
------------------------------------------------------------

namespace LocalCert

/- Whether the faults met are the same as before. -/
def World.MeetsNone
    (before after : World) : Prop :=
  after.faultsMet = before.faultsMet

instance : IsPreorder World World.MeetsNone where
  refl _ := rfl
  trans _ _ _ hFirst hNext := hNext.trans hFirst

theorem World.meetsNone_report
    (w : World)
    (e : Event) :
    w.MeetsNone (w.report e) :=
  report_faultsMet w e

theorem Output.keeps_meetsNone_onTree
    (path : String)
    (step :
      Files.Tree → Files.Location →
        Except Files.Refusal Files.Tree) :
    Act.Keeps World.MeetsNone (onTree path step) := by
  refine Act.Keeps.of ?_
  intro w
  split <;> rfl

theorem Output.keeps_meetsNone_write
    (dir : Path)
    (m : Material) :
    Act.Keeps World.MeetsNone (write dir m) := by
  refine Act.Keeps.bind ?_ ?_
  · refine Act.Keeps.of ?_
    intro w
    split
    · rfl
    · split <;> rfl
  · intro _
    refine Act.Keeps.bind (keeps_meetsNone_onTree _ _) ?_
    intro _
    exact keeps_meetsNone_onTree _ _

------------------------------------------------------------
-- The Two Halves
------------------------------------------------------------

namespace CommandLine

/- The first half of carrying out options: get a pair. -/
def acquire
    (o : Options) : Act Material := do
  Act.report (.requested (o.hostname.getD droppedText))
  (Provisioner.standard World.config).provision
    (o.hostname.getD "")

/- The second half: leave the pair where it is asked for. -/
def finish
    (o : Options)
    (m : Material) : Act Unit :=
  match o.outputDir with
  | some dir => deliver dir m
  | none => Act.fail .noDirectory

theorem fulfil_eq
    (o : Options) :
    fulfil o = acquire o >>= finish o := by
  unfold acquire
  exact (bind_assoc _ _ _).symm

section

variable {R : World → World → Prop}
variable [IsPreorder World R]

theorem keeps_inspect
    (cert : String) :
    Act.Keeps R (inspect cert) := by
  simp only [inspect]
  split
  · exact Act.Keeps.pure _
  · exact Act.Keeps.fail _

/- What reporting keeps, telling keeps. -/
theorem keeps_tell
    (hReport : ∀ w e, R w (World.report w e))
    (dir : Path)
    (s : Certificate.Summary) :
    Act.Keeps R (tell dir s) := by
  have hEach : ∀ e, Act.Keeps R (Act.report e) := by
    intro e w
    exact hReport w e
  unfold tell
  refine Act.Keeps.bind (hEach _) (fun _ => ?_)
  refine Act.Keeps.bind (hEach _) (fun _ => ?_)
  refine Act.Keeps.bind (hEach _) (fun _ => ?_)
  refine Act.Keeps.bind (hEach _) (fun _ => ?_)
  refine Act.Keeps.bind (hEach _) (fun _ => ?_)
  exact hEach _

/- What writing and reporting keep, the second half keeps. -/
theorem keeps_finish
    {o : Options}
    {m : Material}
    (hReport : ∀ w e, R w (World.report w e))
    (hWrite :
      ∀ dir ∈ o.outputDir, Act.Keeps R (Output.write dir m)) :
    Act.Keeps R (finish o m) := by
  unfold finish
  cases hDir : o.outputDir with
  | none => exact Act.Keeps.fail _
  | some dir =>
      refine Act.Keeps.bind (hWrite dir hDir) ?_
      intro _
      exact Act.Keeps.bind (keeps_inspect _)
        (keeps_tell hReport dir)

end

section

variable {R : World → World → Prop}

theorem relates_inspect
    (cert : String) :
    Act.Relates R Eq (inspect cert) (inspect cert) := by
  simp only [inspect]
  split
  · exact Act.Relates.pure rfl
  · exact Act.Relates.fail _

variable
  (hReport :
    ∀ e, Act.Relates R Eq (Act.report e) (Act.report e))

include hReport

/- What two reports share, telling twice shares. -/
theorem relates_tell
    (dir : Path)
    (s : Certificate.Summary) :
    Act.Relates R Eq (tell dir s) (tell dir s) := by
  unfold tell
  refine Act.Relates.bind (hReport _) (fun _ _ _ => ?_)
  refine Act.Relates.bind (hReport _) (fun _ _ _ => ?_)
  refine Act.Relates.bind (hReport _) (fun _ _ _ => ?_)
  refine Act.Relates.bind (hReport _) (fun _ _ _ => ?_)
  refine Act.Relates.bind (hReport _) (fun _ _ _ => ?_)
  exact hReport _

/-
  Pairs with the same certificate, if they are written in
  the same way, are left in the same way.
-/
theorem relates_finish
    {o : Options}
    {m n : Material}
    (hCert : m.cert = n.cert)
    (hWrite :
      ∀ dir ∈ o.outputDir,
        Act.Relates R Eq (Output.write dir m)
          (Output.write dir n)) :
    Act.Relates R Eq (finish o m) (finish o n) := by
  unfold finish
  cases hDir : o.outputDir with
  | none => exact Act.Relates.fail _
  | some dir =>
      refine Act.Relates.bind (hWrite dir hDir) ?_
      intro _ _ _
      rw [hCert]
      refine Act.Relates.bind (relates_inspect n.cert) ?_
      rintro s _ rfl
      exact relates_tell hReport dir s

end

------------------------------------------------------------
-- Answers
------------------------------------------------------------

/-
  The two halves are done, or their failure is told, or it
  escapes.
-/
theorem perform_cases
    (o : Options)
    (w : World) :
    (∃ after,
      (fulfil o).runIn (prepare o w) = (.ok (), after) ∧
        perform o w = (.finished 0, after)) ∨
    (∃ f e after,
      (fulfil o).runIn (prepare o w) = (.error f, after) ∧
        eventOf? f = some e ∧
        perform o w = (.finished 1, after.report e)) ∨
    ∃ f after,
      (fulfil o).runIn (prepare o w) = (.error f, after) ∧
        eventOf? f = none ∧
        perform o w = (.failed f, after) := by
  unfold perform
  rcases (fulfil o).runIn (prepare o w) with
    ⟨result, after⟩
  cases result with
  | ok _ => exact .inl ⟨after, rfl, rfl⟩
  | error f =>
      cases hEvent : eventOf? f with
      | some e =>
          refine .inr (.inl ⟨f, e, after, rfl, hEvent, ?_⟩)
          simp only [hEvent]
      | none =>
          refine .inr (.inr ⟨f, after, rfl, hEvent, ?_⟩)
          simp only [hEvent]

/- The program reports at most once after its two halves. -/
theorem fulfil_perform
    {R : World → World → Prop}
    [IsPreorder World R]
    (hReport : ∀ w e, R w (World.report w e))
    (o : Options)
    (w : World) :
    R ((fulfil o).runIn (prepare o w)).2
      (perform o w).2 := by
  rcases perform_cases o w with
    ⟨after, hRun, hDone⟩ | ⟨f, e, after, hRun, _, hTold⟩ |
      ⟨f, after, hRun, _, hFailed⟩
  · rw [hRun, hDone]
    exact refl_of R after
  · rw [hRun, hTold]
    exact hReport after e
  · rw [hRun, hFailed]
    exact refl_of R after

/- Halves that end in the same way give the same answer. -/
theorem perform_relates
    {R : World → World → Prop}
    {o p : Options}
    {w v : World}
    (hReport :
      ∀ e, Act.Relates R Eq (Act.report e) (Act.report e))
    (hResults :
      Match Eq ((fulfil o).runIn (prepare o w)).1
        ((fulfil p).runIn (prepare p v)).1)
    (hLeft :
      R ((fulfil o).runIn (prepare o w)).2
        ((fulfil p).runIn (prepare p v)).2) :
    (perform p v).1 = (perform o w).1 ∧
      R (perform o w).2 (perform p v).2 := by
  unfold perform
  rcases hRun : (fulfil o).runIn (prepare o w) with
    ⟨result, after⟩
  rcases hTwin : (fulfil p).runIn (prepare p v) with
    ⟨twinResult, twinAfter⟩
  rw [hRun, hTwin] at hResults hLeft
  simp only at hResults hLeft
  rcases hResults.cases with
    ⟨f, rfl, rfl⟩ | ⟨_, _, rfl, rfl, _⟩
  · cases hEvent : eventOf? f with
    | none =>
        simp only [hEvent]
        exact ⟨trivial, hLeft⟩
    | some e =>
        simp only [hEvent]
        exact ⟨trivial, (hReport e _ _ hLeft).2⟩
  · exact ⟨rfl, hLeft⟩

/- Once a pair is issued, no workspace is removed. -/
theorem perform_meetsNone
    (o : Options)
    (w : World) :
    ((acquire o).runIn (prepare o w)).2.MeetsNone
      (perform o w).2 := by
  have hFulfil :
      ((acquire o).runIn (prepare o w)).2.MeetsNone
        ((fulfil o).runIn (prepare o w)).2 := by
    rw [fulfil_eq, Act.runIn_bind]
    cases hRun : (acquire o).runIn (prepare o w) with
    | mk result after =>
        cases result with
        | error f => exact rfl
        | ok m =>
            have hKeeps :
                Act.Keeps World.MeetsNone (finish o m) := by
              apply keeps_finish World.meetsNone_report
              intro dir _
              exact Output.keeps_meetsNone_write dir m
            exact hKeeps after
  exact trans_of World.MeetsNone hFulfil
    (fulfil_perform World.meetsNone_report o w)

theorem restores_acquire
    (o : Options)
    (w : World) :
    w.Restores ((acquire o).runIn w).2 := by
  refine Act.Keeps.bind_at (w.restores_report _) ?_
  intro _ v
  exact Session.request_restores Session.known_standard _ v

end CommandLine

end LocalCert
