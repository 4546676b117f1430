import LocalCert.Proofs.CommandLine.Course
import LocalCert.Proofs.World.Alike

/-
  Two runs of the program side by side.  Pairs with the same
  certificate are delivered in the same way, and the files
  that are left differ in the output key file only.

  Main declarations:
    * `Output.relates_write`
    * `CommandLine.alike_perform`
-/

------------------------------------------------------------
-- Output
------------------------------------------------------------

namespace LocalCert

variable {D : Files.Difference}
variable {cwd : Files.Location}

/- Worlds that are alike, with a given current directory. -/
def World.AlikeAt
    (D : Files.Difference)
    (cwd : Files.Location)
    (w v : World) : Prop :=
  w.cwd = cwd ∧ w.Alike D v

theorem Act.relatesAt_report
    (e : Event) :
    Act.Relates (World.AlikeAt D cwd) Eq (Act.report e)
      (Act.report e) := by
  rintro w v ⟨hHere, hWorlds⟩
  refine ⟨rfl, ?_, hWorlds.report e⟩
  rw [Act.runIn_report, World.report_cwd]
  exact hHere

/- Whether key texts may differ in the output key file. -/
def Files.AllowsKey
    (D : Difference)
    (cwd : Location)
    (dir : Path) : Prop :=
  ∀ k k' : String,
    D
      (destination cwd
        (Path.ofText (Output.keyPath dir).text))
      (Text.Utf8.encodeText k) (Text.Utf8.encodeText k')

namespace Output

variable {dir : Path}
variable {m n : Material}

theorem alike_writeKey
    {t u : Files.Tree}
    (hTrees : t.Alike D u)
    (hKey : Files.AllowsKey D cwd dir)
    (k k' : String) :
    Match (Files.Tree.Alike D)
      (writeKey t cwd (keyPath dir).text k)
      (writeKey u cwd (keyPath dir).text k') := by
  unfold writeKey
  refine (hTrees.openForWriting cwd keyMode _).bind ?_
  rintro ⟨l, t'⟩ ⟨l', u'⟩ ⟨hHere, hSame, hLater⟩
  simp only at hHere hSame hLater
  rw [hSame, hHere]
  exact (hLater.setMode _ keyMode).fill (.inr (hKey k k'))

theorem relates_onTree
    {path : String}
    {step twin :
      Files.Tree → Files.Location →
        Except Files.Refusal Files.Tree}
    (hStep :
      ∀ t u, t.Alike D u →
        Match (Files.Tree.Alike D) (step t cwd)
          (twin u cwd)) :
    Act.Relates (World.AlikeAt D cwd) Eq
      (onTree path step) (onTree path twin) := by
  refine Act.Relates.of ?_
  rintro w v ⟨rfl, files, script, rfl, hFiles, hScript⟩
  rcases (hStep _ _ hFiles).cases with
    ⟨r, hLeft, hRight⟩ | ⟨t, u, hLeft, hRight, hTrees⟩
  · simp only [hLeft, hRight]
    exact ⟨rfl, rfl, files, script, rfl, hFiles, hScript⟩
  · simp only [hLeft, hRight]
    exact ⟨rfl, rfl, u, script, rfl, hTrees, hScript⟩

theorem relates_makeDirectory
    (dir : Path) :
    Act.Relates (World.AlikeAt D cwd) Eq
      (makeDirectory dir) (makeDirectory dir) := by
  refine Act.Relates.of ?_
  rintro w v ⟨rfl, files, script, rfl, hFiles, hScript⟩
  simp only
  split
  · exact ⟨rfl, rfl, files, script, rfl, hFiles, hScript⟩
  · rcases hFiles.makeUpwards dir.parts.length w.cwd dir with
      ⟨hFault, hMade⟩
    unfold Files.Tree.makeDirectories
    rcases hLeft : w.files.makeUpwards dir.parts.length
        w.cwd dir with ⟨f, t⟩
    rcases hRight : files.makeUpwards dir.parts.length
        w.cwd dir with ⟨g, u⟩
    rw [hLeft, hRight] at hFault hMade
    simp only at hFault hMade
    rw [hFault]
    cases g with
    | none =>
        exact ⟨rfl, rfl, u, script, rfl, hMade, hScript⟩
    | some g =>
        exact ⟨rfl, rfl, u, script, rfl, hMade, hScript⟩

/- Pairs with the same certificate are written alike. -/
theorem relates_write
    (hKey : Files.AllowsKey D cwd dir)
    (hPairs : m.SameCert n) :
    Act.Relates (World.AlikeAt D cwd) Eq
      (write dir m) (write dir n) := by
  refine Act.Relates.bind (relates_makeDirectory dir) ?_
  intro _ _ _
  refine Act.Relates.bind (relates_onTree ?_) ?_
  · intro t u hTrees
    exact alike_writeKey hTrees hKey m.key n.key
  · intro _ _ _
    refine relates_onTree ?_
    intro t u hTrees
    rw [hPairs]
    exact hTrees.writeFile (.inl rfl)

end Output

------------------------------------------------------------
-- The Program
------------------------------------------------------------

namespace CommandLine

theorem relates_acquire
    (o : Options) :
    Act.Relates (World.Alike Files.KeyTexts)
      Material.SameCert (acquire o) (acquire o) := by
  refine Act.Relates.bind (Act.relates_report _) ?_
  intro _ _ _
  exact Provisioner.relates_standard
    (fun _ _ hWorlds => hWorlds.config_eq) _

------------------------------------------------------------
-- Answers
------------------------------------------------------------

variable {o : Options}
variable {w v : World}

theorem alike_prepare
    (o : Options)
    (hWorlds : w.Alike D v) :
    (prepare o w).Alike D (prepare o v) := by
  rcases hWorlds with ⟨files, script, rfl, hFiles, hScript⟩
  exact ⟨files, script, rfl, hFiles, hScript⟩

/- The same answer, with worlds that are alike. -/
def AnswersAlike
    (D : Files.Difference)
    (r s : Result × World) : Prop :=
  s.1 = r.1 ∧ r.2.Alike D s.2

/-
  Pairs with the same certificate, in worlds that are alike,
  are left and told of in the same way.
-/
theorem alike_perform_of_acquire
    (hAcquired :
      Match Material.SameCert
        ((acquire o).runIn (prepare o w)).1
        ((acquire o).runIn (prepare o v)).1)
    (hWorlds :
      ((acquire o).runIn (prepare o w)).2.Alike D
        ((acquire o).runIn (prepare o v)).2)
    (hKey :
      ∀ dir ∈ o.outputDir,
        Files.AllowsKey D
          ((acquire o).runIn (prepare o w)).2.cwd dir) :
    AnswersAlike D (perform o w) (perform o v) := by
  have hDone :
      Match Eq
          ((fulfil o).runIn (prepare o w)).1
          ((fulfil o).runIn (prepare o v)).1 ∧
        ((fulfil o).runIn (prepare o w)).2.Alike D
          ((fulfil o).runIn (prepare o v)).2 := by
    rw [fulfil_eq, Act.runIn_bind, Act.runIn_bind]
    rcases hRun : (acquire o).runIn (prepare o w) with
      ⟨result, after⟩
    rcases hTwin : (acquire o).runIn (prepare o v) with
      ⟨twinResult, twinAfter⟩
    rw [hRun, hTwin] at hAcquired hWorlds
    rw [hRun] at hKey
    simp only at hAcquired hWorlds hKey
    rcases hAcquired.cases with
      ⟨f, rfl, rfl⟩ | ⟨m, n, rfl, rfl, hPairs⟩
    · exact ⟨rfl, hWorlds⟩
    · have hFinish :=
        relates_finish Act.relatesAt_report hPairs
          (fun dir hDir =>
            Output.relates_write (hKey dir hDir) hPairs)
      rcases hFinish after twinAfter ⟨rfl, hWorlds⟩ with
        ⟨hResults, _, hLeft⟩
      exact ⟨hResults, hLeft⟩
  exact perform_relates Act.relates_report hDone.1 hDone.2

theorem allowsKey_keyTexts
    (cwd : Files.Location)
    (dir : Path) :
    Files.AllowsKey Files.KeyTexts cwd dir := by
  intro k k'
  refine ⟨?_, ⟨k.toList, rfl⟩, ⟨k'.toList, rfl⟩⟩
  exact Files.getLast?_destination
    (Tool.baseName_child dir (by decide)) (by decide)
    (by decide)

/- The program keeps keys apart from all the rest. -/
theorem alike_perform
    (o : Options)
    (hWorlds : w.Alike Files.KeyTexts v) :
    AnswersAlike Files.KeyTexts (perform o w)
      (perform o v) := by
  have hAcquired :=
    relates_acquire o _ _ (alike_prepare o hWorlds)
  refine alike_perform_of_acquire hAcquired.1 hAcquired.2 ?_
  intro dir _
  exact allowsKey_keyTexts _ dir

end CommandLine

end LocalCert
