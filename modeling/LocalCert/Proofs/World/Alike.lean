import LocalCert.Proofs.Files.Alike
import LocalCert.Proofs.Text.Decoding
import LocalCert.Proofs.World.Course

/-
  Two worlds that are the same but for the contents of some
  files and for the texts that tools are still to write into
  key files.  What is done in both gives the same results,
  except for the keys of issued material, and leaves worlds
  that are the same in the same way.

  Main declarations:
    * `Behaviour.Alike`
    * `World.Alike`
    * `Workspace.relates_within`
    * `Tool.relates_run`
    * `Provisioner.relates_standard`
-/

------------------------------------------------------------
-- Behaviours
------------------------------------------------------------

namespace LocalCert

/- The name of the files in which keys are written. -/
def keyName : String := "key.pem"

namespace Behaviour

/-
  The same file, or key files with the same mode and texts
  of any kind.
-/
inductive FileAlike :
    String × Files.Content → String × Files.Content → Prop
  where
  | same (f : String × Files.Content) : FileAlike f f
  | key
      (name s t : String)
      (mode : Option Nat)
      (hName : Tool.baseName name = keyName) :
      FileAlike
        (name, { Files.Content.ofText s with mode := mode })
        (name, { Files.Content.ofText t with mode := mode })

/- Behaviours that differ in the texts of key files only. -/
structure Alike
    (b c : Behaviour) : Prop where
  ending : b.ending = c.ending
  removesDirectory :
    b.removesDirectory = c.removesDirectory
  files : List.Forall₂ FileAlike b.files c.files

theorem Alike.refl
    (b : Behaviour) :
    b.Alike b where
  ending := rfl
  removesDirectory := rfl
  files := List.forall₂_same.mpr (fun f _ => .same f)

theorem FileAlike.names_eq
    {fs gs : List (String × Files.Content)}
    (hFiles : List.Forall₂ FileAlike fs gs) :
    fs.map Prod.fst = gs.map Prod.fst := by
  induction hFiles with
  | nil => rfl
  | cons hFirst _ ih =>
      cases hFirst <;> simp [ih]

end Behaviour

namespace Files

/- Well-formed texts in key files may differ. -/
def KeyTexts : Difference :=
  fun l a b =>
    l.getLast? = some keyName ∧
      Text.Utf8.WellFormed a ∧ Text.Utf8.WellFormed b

/- A text leads to a location that ends with its last part. -/
theorem getLast?_destination
    {cwd : Location}
    {text name : String}
    (hName : Tool.baseName text = name)
    (hSome : name ≠ "")
    (hUp : name ≠ "..") :
    (destination cwd (Path.ofText text)).getLast? =
      some name := by
  unfold Tool.baseName at hName
  cases hLast : (Path.ofText text).parts.getLast? with
  | none =>
      rw [hLast] at hName
      exact absurd hName.symm hSome
  | some part =>
      rw [hLast] at hName
      simp only [Option.getD_some] at hName
      rw [hName] at hLast
      rcases List.getLast?_eq_some_iff.mp hLast with
        ⟨front, hParts⟩
      have hPart : (name == "..") = false := by
        simpa using hUp
      rw [destination, hParts, resolve_append]
      simp [resolve, hPart]

end Files

------------------------------------------------------------
-- Worlds
------------------------------------------------------------

/-
  Worlds that are the same but for some contents of files,
  and for the texts of key files that tools are to write.
-/
def World.Alike
    (D : Files.Difference)
    (w v : World) : Prop :=
  ∃ files script,
    v = { w with files := files, script := script } ∧
      w.files.Alike D files ∧
      List.Forall₂ Behaviour.Alike w.script script

variable {D : Files.Difference}
variable {w v : World}

theorem World.Alike.report
    (hWorlds : w.Alike D v)
    (e : Event) :
    (w.report e).Alike D (v.report e) := by
  rcases hWorlds with ⟨files, script, rfl, hFiles, hScript⟩
  unfold World.report
  split
  · exact ⟨files, script, rfl, hFiles, hScript⟩
  · exact ⟨files, script, rfl, hFiles, hScript⟩

theorem Act.relates_report
    (e : Event) :
    Act.Relates (World.Alike D) Eq (Act.report e)
      (Act.report e) := by
  intro w v hWorlds
  exact ⟨rfl, hWorlds.report e⟩

------------------------------------------------------------
-- Workspaces
------------------------------------------------------------

namespace Workspace

theorem alike_tryNames
    {w v : World}
    (directory start : String)
    (tries : Nat)
    (hWorlds : w.Alike D v) :
    Match Eq (tryNames directory start tries w).1
        (tryNames directory start tries v).1 ∧
      (tryNames directory start tries w).2.Alike D
        (tryNames directory start tries v).2 := by
  induction tries generalizing w v with
  | zero => exact ⟨rfl, hWorlds⟩
  | succ tries ih =>
      rcases hWorlds with
        ⟨files, script, rfl, hFiles, hScript⟩
      simp only [tryNames]
      split
      · exact ⟨rfl, files, script, rfl, hFiles, hScript⟩
      · rcases (hFiles.makeDirectory w.cwd privateMode
            (Path.joinText directory
              (start ++ uniquePart (w.namesTried + 1)))).cases
          with
          ⟨r, hMake, hTwin⟩ | ⟨t, u, hMake, hTwin, hMade⟩
        · rw [hMake, hTwin]
          cases r with
          | alreadyExists =>
              exact ih ⟨files, script, rfl, hFiles, hScript⟩
          | _ =>
              exact
                ⟨rfl, files, script, rfl, hFiles, hScript⟩
        · rw [hMake, hTwin]
          exact ⟨rfl, u, script, rfl, hMade, hScript⟩

theorem relates_create
    (start : String)
    (parent : Option Path) :
    Act.Relates (World.Alike D) Eq
      (create start parent) (create start parent) := by
  refine Act.Relates.bind (Q := Eq) ?_ ?_
  · refine Act.Relates.of ?_
    intro w v hWorlds
    have hDirectory :
        directoryOf v parent = directoryOf w parent := by
      rcases hWorlds with ⟨files, script, rfl, _, _⟩
      rfl
    rw [hDirectory]
    exact alike_tryNames _ _ _ hWorlds
  · rintro path _ rfl
    refine Act.Relates.bind (Act.relates_report _) ?_
    intro _ _ _
    exact Act.Relates.pure rfl

theorem alike_noteFault
    {w v : World}
    (path : Path)
    (f : Files.Fault)
    (hWorlds : w.Alike D v) :
    (noteFault path f w).Alike D (noteFault path f v) := by
  rcases hWorlds with ⟨files, script, rfl, hFiles, hScript⟩
  refine World.Alike.report ?_ _
  exact ⟨files, script, rfl, hFiles, hScript⟩

theorem alike_close
    {w v : World}
    (path : Path)
    (hWorlds : w.Alike D v) :
    (close path w).Alike D (close path v) := by
  rcases hWorlds with ⟨files, script, rfl, hFiles, hScript⟩
  simp only [close, World.nextRemovalFault]
  split
  · exact alike_noteFault path _
      ⟨files, script, rfl, hFiles, hScript⟩
  · rcases hFiles.removeAll w.cwd path.text with
      ⟨hFault, hLeft⟩
    rcases hRemove : w.files.removeAll w.cwd path.text with
      ⟨f, t⟩
    rcases hTwin : files.removeAll w.cwd path.text with
      ⟨g, u⟩
    rw [hRemove, hTwin] at hFault hLeft
    simp only at hFault hLeft
    rw [hFault]
    cases g with
    | none => exact ⟨u, script, rfl, hLeft, hScript⟩
    | some g =>
        exact alike_noteFault path _
          ⟨u, script, rfl, hLeft, hScript⟩

theorem relates_within
    {α β : Type}
    {Q : α → β → Prop}
    {start : String}
    {parent : Option Path}
    {body : Path → Act α}
    {twin : Path → Act β}
    (hBody :
      ∀ path,
        Act.Relates (World.Alike D) Q (body path)
          (twin path)) :
    Act.Relates (World.Alike D) Q
      (within start parent body)
      (within start parent twin) := by
  refine Act.Relates.bind (relates_create start parent) ?_
  rintro path _ rfl
  exact Act.Relates.ensuring (hBody path)
    (fun _ _ => alike_close path)

/- The same failure, or texts that differ in key files. -/
theorem match_readText
    (path : String)
    (hWorlds : w.Alike Files.KeyTexts v) :
    Match
      (fun s t =>
        s = t ∨
          (Files.destination w.cwd
            (Path.ofText path)).getLast? = some keyName)
      (readText w path) (readText v path) := by
  rcases hWorlds with ⟨files, script, rfl, hFiles, _⟩
  unfold readText
  split
  · rfl
  · rcases (hFiles.read w.cwd path).cases with
      ⟨r, hRead, hTwin⟩ | ⟨a, b, hRead, hTwin, hBytes⟩
    · rw [hRead, hTwin]
      rfl
    · rw [hRead, hTwin]
      rcases hBytes with rfl | ⟨hName, hText, hTwinText⟩
      · exact Match.refl (fun _ => .inl rfl) _
      · rcases hText.exists_decode with ⟨cs, hDecode⟩
        rcases hTwinText.exists_decode with
          ⟨ds, hTwinDecode⟩
        simp only [hDecode, hTwinDecode]
        exact .inr hName

end Workspace

/- Pairs with the same certificate. -/
def Material.SameCert
    (m n : Material) : Prop :=
  m.cert = n.cert

theorem Material.SameCert.refl
    (m : Material) :
    m.SameCert m := rfl

theorem Workspace.relates_readMaterial
    {certPath : String}
    (keyPath : String)
    (hCert : Tool.baseName certPath = "cert.pem") :
    Act.Relates (World.Alike Files.KeyTexts)
      Material.SameCert
      (readMaterial keyPath certPath)
      (readMaterial keyPath certPath) := by
  refine Act.Relates.of ?_
  intro w v hWorlds
  rcases (match_readText keyPath hWorlds).cases with
    ⟨f, hKey, hTwin⟩ | ⟨k, k', hKey, hTwin, _⟩
  · rw [hKey, hTwin]
    exact ⟨rfl, hWorlds⟩
  · rw [hKey, hTwin]
    rcases (match_readText certPath hWorlds).cases with
      ⟨f, hRead, hReadTwin⟩ |
        ⟨c, c', hRead, hReadTwin, hSame⟩
    · simp only [hRead, hReadTwin]
      exact ⟨rfl, hWorlds⟩
    · simp only [hRead, hReadTwin]
      refine ⟨?_, hWorlds⟩
      rcases hSame with hSame | hName
      · exact hSame
      · rw [Files.getLast?_destination hCert (by decide)
          (by decide)] at hName
        exact absurd hName (by decide)

------------------------------------------------------------
-- Tools
------------------------------------------------------------

namespace Tool

variable {b c : Behaviour}

/- A text after a directory ends as it ends alone. -/
theorem baseName_joinText
    {name : String}
    (directory : String)
    (hName : baseName name = keyName) :
    baseName (Path.joinText directory name) = keyName := by
  by_cases hRelative : (Path.ofText name).root = .relative
  · have hParts : (Path.ofText name).parts ≠ [] := by
      intro hNone
      rw [baseName, hNone] at hName
      exact absurd hName (by decide)
    rw [baseName, Path.ofText_joinText hRelative,
      List.getLast?_append_of_ne_nil _ hParts]
    exact hName
  · have hJoin : Path.joinText directory name = name := by
      have hSlash : name.toList[0]? = some '/' := by
        by_contra hOther
        exact hRelative
          ((Path.rootOfChars_eq_relative_iff _).mpr hOther)
      simp [Path.joinText, List.head?_eq_getElem?, hSlash]
    rw [hJoin]
    exact hName

/- Key files are placed where they are called key files. -/
theorem placementAlike_of_fileAlike
    {f g : String × Files.Content}
    (cwd : Files.Location)
    (directory : String)
    (hFiles : Behaviour.FileAlike f g) :
    Files.PlacementAlike Files.KeyTexts cwd
      (Path.joinText directory f.1, f.2)
      (Path.joinText directory g.1, g.2) := by
  cases hFiles with
  | same => exact ⟨rfl, .same _⟩
  | key name s t mode hName =>
      refine ⟨rfl, .bytes mode ⟨?_, ?_, ?_⟩⟩
      · exact Files.getLast?_destination
          (baseName_joinText directory hName)
          (by decide) (by decide)
      · exact ⟨s.toList, rfl⟩
      · exact ⟨t.toList, rfl⟩

theorem alike_besides
    (cwd : Files.Location)
    (output : String)
    (hBehaviours : b.Alike c) :
    List.Forall₂
      (Files.PlacementAlike Files.KeyTexts cwd)
      (besides output b.files) (besides output c.files) := by
  refine List.rel_map ?_ hBehaviours.files
  intro f g hFiles
  exact placementAlike_of_fileAlike cwd _ hFiles

theorem usualContents_eq
    (argv : List String)
    (hBehaviours : b.Alike c) :
    usualContents argv b = usualContents argv c := by
  have hNames :
      ∀ name,
        b.files.any (fun f => f.1 == name) =
          c.files.any (fun f => f.1 == name) := by
    intro name
    have hMap :=
      congrArg (fun names => names.any (· == name))
        (Behaviour.FileAlike.names_eq hBehaviours.files)
    simpa [List.any_map, Function.comp_def] using hMap
  simp only [usualContents, hNames]

theorem alike_leaveFiles
    {t u : Files.Tree}
    (argv : List String)
    (cwd : Files.Location)
    (hBehaviours : b.Alike c)
    (hTrees : t.Alike Files.KeyTexts u) :
    (leaveFiles argv b cwd t).Alike Files.KeyTexts
      (leaveFiles argv c cwd u) := by
  unfold leaveFiles
  rw [hBehaviours.ending, hBehaviours.removesDirectory,
    usualContents_eq argv hBehaviours]
  cases outputs argv with
  | nil => exact hTrees
  | cons output rest =>
      have hPlaced :=
        hTrees.placeAll (alike_besides cwd output hBehaviours)
      have hUsual :=
        hPlaced.placeAll
          (List.forall₂_same.mpr (fun d
              (_ : d ∈ usualContents argv c) =>
            (⟨rfl, .same _⟩ :
              Files.PlacementAlike Files.KeyTexts cwd d d)))
      simp only
      split
      · exact hTrees
      · cases succeeded c.ending with
        | true =>
            cases c.removesDirectory with
            | true => exact (hUsual.removeAll cwd _).2
            | false => exact hUsual
        | false =>
            cases c.removesDirectory with
            | true => exact (hPlaced.removeAll cwd _).2
            | false => exact hPlaced

theorem relates_start
    (c : Command) :
    Act.Relates (World.Alike Files.KeyTexts) Eq
      (start c) (start c) := by
  refine Act.Relates.of ?_
  rintro w v ⟨files, script, rfl, hFiles, hScript⟩
  rcases w with ⟨t, cwd, tempDir, bs⟩
  simp only at hFiles hScript
  cases hScript with
  | nil =>
      exact ⟨rfl, _, _, rfl,
        alike_leaveFiles c.argv cwd (.refl _) hFiles, .nil⟩
  | cons hFirst hRest =>
      exact ⟨hFirst.ending, _, _, rfl,
        alike_leaveFiles c.argv cwd hFirst hFiles, hRest⟩

theorem relates_run
    (c : Command) :
    Act.Relates (World.Alike Files.KeyTexts) Eq
      (run c) (run c) := by
  unfold run
  split
  · exact Act.Relates.fail _
  · refine Act.Relates.bind (Act.relates_report _) ?_
    intro _ _ _
    refine Act.Relates.bind (relates_start c) ?_
    rintro ending _ rfl
    refine Act.Relates.of ?_
    intro w v hWorlds
    exact ⟨Match.refl (fun _ => rfl) _, hWorlds⟩

end Tool

------------------------------------------------------------
-- Attempts
------------------------------------------------------------

theorem Tool.baseName_child
    {name : String}
    (p : Path)
    (hName : Path.IsPart name) :
    baseName (p.child name).text = name := by
  rw [baseName, Path.getLast?_parts_child p hName]
  rfl

theorem Trusted.relates_issue
    (config : Config)
    (hostname : String) :
    Act.Relates (World.Alike Files.KeyTexts)
      Material.SameCert
      (issue config hostname) (issue config hostname) := by
  refine Act.Relates.bind (Workspace.relates_within ?_)
    (fun _ _ =>
      Act.Relates.telling (Act.relates_report _))
  intro ws
  refine relates_attempt (Tool.relates_run _) ?_
  exact Workspace.relates_readMaterial _
    (Tool.baseName_child ws (by decide))

theorem Manual.relates_issue
    (config : Config)
    (hostname : String) :
    Act.Relates (World.Alike Files.KeyTexts)
      Material.SameCert
      (issue config hostname) (issue config hostname) := by
  refine Act.Relates.bind (Workspace.relates_within ?_)
    (fun _ _ =>
      Act.Relates.telling (Act.relates_report _))
  intro ws
  refine relates_attempt (fun c _ => Tool.relates_run c) ?_
  exact Workspace.relates_readMaterial _
    (Tool.baseName_child ws (by decide))

------------------------------------------------------------
-- Strategies
------------------------------------------------------------

theorem World.Alike.config_eq
    (hWorlds : w.Alike D v) :
    v.config = w.config := by
  rcases hWorlds with ⟨files, script, rfl, _, _⟩
  rfl

/- Strategies that keep keys apart from all the rest. -/
def Strategy.HidesKeys
    (s : Strategy) : Prop :=
  ∀ hostname,
    Act.Relates (World.Alike Files.KeyTexts)
      Material.SameCert
      (s.issue hostname) (s.issue hostname)

section

variable {config : World → Config}

theorem Strategy.hidesKeys_trusted
    (hConfig :
      ∀ w v, w.Alike Files.KeyTexts v →
        config v = config w) :
    (Strategy.trusted config).HidesKeys := by
  intro hostname
  refine Act.Relates.bind (Q := Eq)
    (Act.Relates.look ?_) ?_
  · intro w v hWorlds
    exact (hConfig w v hWorlds).symm
  · rintro c _ rfl
    exact Trusted.relates_issue c hostname

theorem Strategy.hidesKeys_manual
    (hConfig :
      ∀ w v, w.Alike Files.KeyTexts v →
        config v = config w) :
    (Strategy.manual config).HidesKeys := by
  intro hostname
  refine Act.Relates.bind (Q := Eq)
    (Act.Relates.look ?_) ?_
  · intro w v hWorlds
    exact (hConfig w v hWorlds).symm
  · rintro c _ rfl
    exact Manual.relates_issue c hostname

end

theorem Strategy.hidesKeys_scripted
    (position : Nat)
    (a : Answers) :
    (Strategy.scripted position a).HidesKeys := by
  intro hostname
  refine Act.Relates.of ?_
  rintro w v ⟨files, script, rfl, hFiles, hScript⟩
  have hAnswer :
      Match Material.SameCert
        (a.at (w.calls.countP (isCallTo position)))
        (a.at (w.calls.countP (isCallTo position))) :=
    Match.refl Material.SameCert.refl _
  exact ⟨hAnswer, files, script, rfl, hFiles, hScript⟩

namespace Provisioner

theorem relates_standard
    {config : World → Config}
    (hConfig :
      ∀ w v, w.Alike Files.KeyTexts v →
        config v = config w)
    (hostname : String) :
    Act.Relates (World.Alike Files.KeyTexts)
      Material.SameCert
      ((standard config).provision hostname)
      ((standard config).provision hostname) := by
  apply relates_provision Act.relates_report
  apply forall_standard
  · exact Strategy.hidesKeys_trusted hConfig
  · exact Strategy.hidesKeys_manual hConfig

end Provisioner

end LocalCert
