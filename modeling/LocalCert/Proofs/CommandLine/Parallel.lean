import LocalCert.Proofs.CommandLine.Course
import LocalCert.Proofs.CommandLine.Options
import LocalCert.Proofs.World.Chronicle

/-
  The program in two worlds that differ in their chronicles.

  Main declarations:
    * `CommandLine.parallel_fulfil`
    * `CommandLine.parallel_perform`
-/

------------------------------------------------------------
-- Output
------------------------------------------------------------

namespace LocalCert

open World (Parallel)

variable {g h : Chronicle}
variable {w v : World}

namespace Output

theorem parallel_onTree
    (path : String)
    (step :
      Files.Tree → Files.Location →
        Except Files.Refusal Files.Tree) :
    Act.Relates (Parallel g h) Eq (onTree path step)
      (onTree path step) := by
  refine Act.parallel_of ?_
  intro u k
  have hStep :
      step (u.withChronicle k).files
          (u.withChronicle k).cwd =
        step u.files u.cwd := rfl
  rw [hStep]
  cases step u.files u.cwd <;> rfl

theorem parallel_makeDirectory
    (dir : Path) :
    Act.Relates (Parallel g h) Eq (makeDirectory dir)
      (makeDirectory dir) := by
  refine Act.parallel_of ?_
  intro u k
  have hMade :
      (u.withChronicle k).files.makeDirectories
          (u.withChronicle k).cwd dir =
        u.files.makeDirectories u.cwd dir := rfl
  rw [hMade]
  split
  · rfl
  · rcases u.files.makeDirectories u.cwd dir with ⟨f, files⟩
    cases f <;> rfl

theorem parallel_write
    (dir : Path)
    (m : Material) :
    Act.Relates (Parallel g h) Eq (write dir m)
      (write dir m) := by
  refine Act.Relates.bind (parallel_makeDirectory dir) ?_
  intro _ _ _
  refine Act.Relates.bind (parallel_onTree _ _) ?_
  intro _ _ _
  exact parallel_onTree _ _

end Output

------------------------------------------------------------
-- The Program
------------------------------------------------------------

namespace CommandLine

theorem parallel_fulfil
    (o : Options) :
    Act.Relates (Parallel g h) Eq (fulfil o) (fulfil o) := by
  rw [fulfil_eq]
  refine Act.Relates.bind (Q := Eq) ?_ ?_
  · refine Act.Relates.bind (Act.parallel_report _) ?_
    intro _ _ _
    exact Provisioner.parallel_provision (fun _ _ => rfl) _
  · rintro m _ rfl
    apply relates_finish Act.parallel_report rfl
    intro dir _
    exact Output.parallel_write dir m

theorem fulfil_withDetails
    (o : Options) :
    fulfil o.withDetails = fulfil o := rfl

/- Options that ask for the same in both worlds. -/
theorem parallel_perform
    {o p : Options}
    (hOptions : fulfil p = fulfil o)
    (hWorlds : Parallel g h (prepare o w) (prepare p v)) :
    (perform p v).1 = (perform o w).1 ∧
      Parallel g h (perform o w).2 (perform p v).2 := by
  have hDone := parallel_fulfil o _ _ hWorlds
  apply perform_relates Act.parallel_report
  · rw [hOptions]
    exact hDone.1
  · rw [hOptions]
    exact hDone.2

end CommandLine

end LocalCert
