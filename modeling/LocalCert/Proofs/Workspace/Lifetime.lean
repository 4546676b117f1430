import LocalCert.Proofs.World.Course

/-
  The life of a workspace: it is made in a free place, so
  that cutting it gives the files from before, and closing
  it cuts it, unless the removal meets a fault other than
  that the workspace is gone.

  Main declarations:
    * `Workspace.create_eq_ok`
    * `Workspace.create_eq_error`
    * `World.Cleared`
    * `World.Holds`
    * `Workspace.close_files_of_no_fault`
    * `Workspace.close_files`
    * `Workspace.within_files`
    * `Workspace.within_outside`
-/

------------------------------------------------------------
-- Opening
------------------------------------------------------------

namespace LocalCert

/- A number is written with digits. -/
theorem Text.isDigit_of_mem_paddedDecimal
    {width n : Nat}
    {c : Char}
    (hChar : c ∈ paddedDecimal width n) :
    c.isDigit = true := by
  rcases List.mem_append.mp hChar with hZero | hDigit
  · rw [List.eq_of_mem_replicate hZero]
    rfl
  · exact Nat.isDigit_of_mem_toDigits (by decide)
      (by decide) hDigit

namespace Workspace

/- The text of the path that is tried as the n-th. -/
def nameAt
    (directory start : String)
    (n : Nat) : String :=
  Path.joinText directory (start ++ uniquePart n)

theorem hasNul_eq_false_iff
    {text : String} :
    hasNul text = false ↔ '\x00' ∉ text.toList := by
  simp [hasNul]

theorem hasNul_uniquePart
    (n : Nat) :
    hasNul (uniquePart n) = false := by
  have hDigits : '\x00' ∉ Text.paddedDecimal 6 n := by
    intro hZero
    have hDigit := Text.isDigit_of_mem_paddedDecimal hZero
    revert hDigit
    decide
  rw [hasNul_eq_false_iff]
  simp [uniquePart, hDigits]

theorem hasNul_joinText
    {a b : String}
    (hFirst : hasNul a = false)
    (hNext : hasNul b = false) :
    hasNul (Path.joinText a b) = false := by
  rw [hasNul_eq_false_iff] at hFirst hNext ⊢
  unfold Path.joinText
  split
  · exact hNext
  · split
    · simp [hFirst, hNext]
    · simp [hFirst, hNext]

/- Names without the character zero, in such a directory. -/
theorem hasNul_nameAt
    {directory start : String}
    (n : Nat)
    (hDirectory : hasNul directory = false)
    (hStart : hasNul start = false) :
    hasNul (nameAt directory start n) = false := by
  apply hasNul_joinText hDirectory
  have hUnique := hasNul_uniquePart n
  rw [hasNul_eq_false_iff] at hStart hUnique ⊢
  simp [hStart, hUnique]

theorem hasNul_text_child
    {text name : String}
    (hText : hasNul text = false)
    (hName : hasNul name = false) :
    hasNul ((Path.ofText text).child name).text = false := by
  rw [hasNul_eq_false_iff] at hText hName ⊢
  intro hZero
  rcases Path.mem_text hZero with
    hSlash | hDot | ⟨part, hPart, hIn⟩
  · revert hSlash
    decide
  · revert hDot
    decide
  · rcases List.mem_append.mp hPart with hPart | hPart
    · exact hText (Path.mem_of_mem_parts_ofText hPart hIn)
    · rw [List.mem_singleton.mp hPart] at hIn
      exact hName hIn

/- A workspace is a new directory in a free place. -/
theorem tryNames_eq_ok
    {directory start : String}
    {tries : Nat}
    {w after : World}
    {ws : Path}
    (hRun :
      tryNames directory start tries w = (.ok ws, after)) :
    ∃ n l,
      ws = Path.ofText (nameAt directory start n) ∧
        w.files.HasPlace w.cwd ws.text l ∧
        after =
          { w with
            namesTried := n
            files :=
              w.files.put l (.directory privateMode) } := by
  induction tries generalizing w with
  | zero => cases hRun
  | succ tries ih =>
      simp only [tryNames] at hRun
      split at hRun
      · cases hRun
      · split at hRun
        · next files hMake =>
            cases hRun
            rcases Files.Tree.makeDirectory_eq_ok_iff.mp hMake
              with ⟨l, hPlace, rfl⟩
            exact ⟨w.namesTried + 1, l, rfl, hPlace.ofText,
              rfl⟩
        · rcases ih hRun with ⟨n, l, hPath, hPlace, hAfter⟩
          exact ⟨n, l, hPath, hPlace, hAfter⟩
        · cases hRun

/- No workspace, and nothing else either. -/
theorem tryNames_eq_error
    {directory start : String}
    {tries : Nat}
    {w after : World}
    {f : Failure}
    (hRun :
      tryNames directory start tries w = (.error f, after)) :
    after = { w with namesTried := after.namesTried } ∧
      (f.kind = .workspace ∨
        f = .nulInPath ∧
          ∃ n, hasNul (nameAt directory start n)) := by
  induction tries generalizing w with
  | zero =>
      cases hRun
      exact ⟨rfl, .inl rfl⟩
  | succ tries ih =>
      simp only [tryNames] at hRun
      split at hRun
      · next hNul =>
          cases hRun
          exact ⟨rfl, .inr ⟨rfl, w.namesTried + 1, hNul⟩⟩
      · split at hRun
        · cases hRun
        · rcases ih hRun with ⟨hAfter, hFailure⟩
          exact ⟨hAfter, hFailure⟩
        · cases hRun
          exact ⟨rfl, .inl rfl⟩

/- Making a workspace is reported in the new world. -/
theorem create_eq_ok
    {start : String}
    {parent : Option Path}
    {w after : World}
    {ws : Path}
    (hRun :
      (create start parent).runIn w = (.ok ws, after)) :
    ∃ n l,
      ws = Path.ofText
          (nameAt (directoryOf w parent) start n) ∧
        w.files.HasPlace w.cwd ws.text l ∧
        after =
          World.report
            { w with
              namesTried := n
              files :=
                w.files.put l (.directory privateMode) }
            (.workspaceCreated ws.text) := by
  rw [create, Act.runIn_bind, Act.runIn_of] at hRun
  cases hTry :
      tryNames (directoryOf w parent) start maxTries w with
  | mk result made =>
      rw [hTry] at hRun
      cases result with
      | error f => cases hRun
      | ok path =>
          cases hRun
          rcases tryNames_eq_ok hTry with
            ⟨n, l, hPath, hPlace, rfl⟩
          exact ⟨n, l, hPath, hPlace, rfl⟩

/- The path of a workspace can be handed to the system. -/
theorem exists_text_of_tryNames
    {directory start : String}
    {tries : Nat}
    {w after : World}
    {ws : Path}
    (hRun :
      tryNames directory start tries w = (.ok ws, after)) :
    ∃ text, ws = Path.ofText text ∧ hasNul text = false := by
  induction tries generalizing w with
  | zero => cases hRun
  | succ tries ih =>
      simp only [tryNames] at hRun
      split at hRun
      · cases hRun
      · next hNul =>
          split at hRun
          · cases hRun
            exact ⟨_, rfl, Bool.eq_false_iff.mpr hNul⟩
          · exact ih hRun
          · cases hRun

theorem exists_text_of_create
    {start : String}
    {parent : Option Path}
    {w after : World}
    {ws : Path}
    (hRun :
      (create start parent).runIn w = (.ok ws, after)) :
    ∃ text, ws = Path.ofText text ∧ hasNul text = false := by
  rw [create, Act.runIn_bind, Act.runIn_of] at hRun
  cases hTry :
      tryNames (directoryOf w parent) start maxTries w with
  | mk result made =>
      rw [hTry] at hRun
      cases result with
      | error f => cases hRun
      | ok path =>
          cases hRun
          exact exists_text_of_tryNames hTry

theorem create_eq_error
    {start : String}
    {parent : Option Path}
    {w after : World}
    {f : Failure}
    (hRun :
      (create start parent).runIn w = (.error f, after)) :
    after = { w with namesTried := after.namesTried } ∧
      (f.kind = .workspace ∨
        f = .nulInPath ∧
          ∃ n,
            hasNul
              (nameAt (directoryOf w parent) start n)) := by
  rw [create, Act.runIn_bind, Act.runIn_of] at hRun
  cases hTry :
      tryNames (directoryOf w parent) start maxTries w with
  | mk result made =>
      rw [hTry] at hRun
      cases result with
      | ok path => cases hRun
      | error g =>
          cases hRun
          exact tryNames_eq_error hTry

end Workspace

------------------------------------------------------------
-- Closing
------------------------------------------------------------

/-
  Whether between two worlds no removal failed: the faults
  met were only that the workspace was gone already.
-/
def World.Cleared
    (before after : World) : Prop :=
  ∀ f ∈ after.faultsMet.drop before.faultsMet.length,
    f.category = .missing

instance
    (before after : World) :
    Decidable (before.Cleared after) := by
  unfold World.Cleared
  infer_instance

theorem World.Cleared.split
    {a b c : World}
    (hCleared : a.Cleared c)
    (hFirst : a.Leads b)
    (hNext : b.Leads c) :
    a.Cleared b ∧ b.Cleared c := by
  rcases hFirst.faultsMet with ⟨first, hFirst⟩
  rcases hNext.faultsMet with ⟨next, hNext⟩
  have hAll : a.faultsMet ++ (first ++ next) = c.faultsMet := by
    rw [← hNext, ← hFirst, List.append_assoc]
  unfold Cleared at hCleared ⊢
  rw [← hAll, List.drop_left] at hCleared
  rw [← hNext, List.drop_left, ← hFirst, List.drop_left]
  constructor
  · intro f hf
    exact hCleared f (List.mem_append_left _ hf)
  · intro f hf
    exact hCleared f (List.mem_append_right _ hf)

namespace Files

namespace Tree

/-
  A removal that meets no fault but that nothing is there
  cuts what its path leads to.
-/
theorem WellFormed.removeAll_eq_cut
    {t : Tree}
    {cwd l : Location}
    {text : String}
    (hTree : t.WellFormed)
    (hLocate : t.locate cwd text = .ok l)
    (hParent : t.checkParent l = .ok ())
    (hCleared :
      ∀ f ∈ (t.removeAll cwd text).1,
        f.category = .missing) :
    (t.removeAll cwd text).2 = t.cut l := by
  rcases removeAll_cases hLocate with
    ⟨hFree, hGone⟩ | ⟨f, u, hResists, hFault | hBarred⟩ |
      ⟨_, hCut⟩
  · rw [hGone]
    exact (hTree.cut_eq_self hFree).symm
  · rw [hResists] at hCleared
    exact absurd (hCleared f rfl) hFault
  · exact absurd hParent hBarred
  · rw [hCut]

end Tree

end Files

namespace Workspace

section

variable {w : World}
variable {l : Files.Location}
variable {ws : Path}

/- Closing changes nothing outside the place of its path. -/
theorem close_sameOutside_of_ne_nil
    (hHere :
      Files.destination w.cwd (Path.ofText ws.text) = l)
    (hBelow : l ≠ []) :
    w.files.SameOutside l (close ws w).files := by
  have hEvolves :
      Files.Tree.Evolves (l <+: ·) w.files
        (w.files.removeAll w.cwd ws.text).2 := by
    apply Files.Tree.removeAll_evolves
    simp only [hHere, List.prefix_rfl]
  rw [close_files_eq, closedFiles]
  split
  · exact fun _ _ => rfl
  · intro m hOutside
    exact Files.Tree.at?_eq_of_cut_eq hBelow
      hEvolves.cut_eq.symm
      (Files.Tree.isPrefixOf_eq_false_iff.mp hOutside)

/- A removal without a fault cuts the directory there. -/
theorem close_files_of_no_fault
    (hHere :
      Files.destination w.cwd (Path.ofText ws.text) = l)
    (hFaults : (close ws w).faultsMet = w.faultsMet) :
    w.files.HasDirectory l ∧
      (close ws w).files = w.files.cut l := by
  have hNone : closingFault ws w = none := by
    simpa using hFaults
  have hUnset : w.nextRemovalFault = none := by
    cases hFault : w.nextRemovalFault with
    | none => rfl
    | some words =>
        rw [closingFault_of_set hFault] at hNone
        cases hNone
  simp only [closingFault, hUnset] at hNone
  simp only [close_files_eq, closedFiles, hUnset]
  rcases Files.Tree.removeAll_of_no_fault hNone with
    ⟨m, hLocate, hDirectory, hCut⟩
  rw [← hHere, ← Files.Tree.locate_eq_ok hLocate]
  exact ⟨hDirectory, hCut⟩

/- Nothing is removed where nothing is. -/
theorem close_files_of_free
    (hHere :
      Files.destination w.cwd (Path.ofText ws.text) = l)
    (hFree : w.files.at? l = none) :
    (close ws w).files = w.files := by
  rw [close_files_eq, closedFiles]
  split
  · rfl
  · unfold Files.Tree.removeAll
    split
    · rfl
    · next m hLocate =>
        rw [Files.Tree.locate_eq_ok hLocate, hHere, hFree]

end

end Workspace

------------------------------------------------------------
-- Holding A Workspace
------------------------------------------------------------

/-
  Whether a world has come of another one with nothing
  changed outside a workspace: cutting the workspace gives
  the files from before.
-/
structure World.Holds
    (before : World)
    (l : Files.Location)
    (w : World) : Prop where
  leads : before.Leads w
  files : w.files.WellFormed
  cut : w.files.cut l = before.files

namespace Workspace

variable {before w : World}
variable {l : Files.Location}
variable {ws : Path}

/- Closing a workspace gives the files from before. -/
theorem close_files
    (hBefore : before.files.WellFormed)
    (hPlace : before.files.HasPlace before.cwd ws.text l)
    (hHolds : before.Holds l w)
    (hCleared : w.Cleared (close ws w)) :
    (close ws w).files = before.files := by
  have hMore :=
    hBefore.extends_of_cut_eq hPlace.free hHolds.cut
  have hLocate : w.files.locate w.cwd ws.text = .ok l := by
    rw [hHolds.leads.cwd]
    exact hMore.locate hPlace.located
  have hParent := hMore.checkParent hPlace.allowed
  cases hFault : w.nextRemovalFault with
  | some words =>
      have hCategory :=
        hCleared (.described words)
          (by simp [closingFault_of_set hFault])
      cases hCategory
  | none =>
      have hClosed :
          (close ws w).files =
            (w.files.removeAll w.cwd ws.text).2 := by
        simp only [close_files_eq, closedFiles, hFault]
      rw [hClosed, hHolds.files.removeAll_eq_cut hLocate
        hParent, hHolds.cut]
      intro f hf
      exact hCleared f
        (by simpa [closingFault, hFault] using hf)

/- A workspace that was just made is held. -/
theorem holds_create
    {start : String}
    {parent : Option Path}
    {after : World}
    (hFiles : w.files.WellFormed)
    (hPlace : w.files.HasPlace w.cwd ws.text l)
    (hRun :
      (create start parent).runIn w = (.ok ws, after)) :
    w.Holds l after := by
  have hLeads := keeps_leads_create start parent w
  rw [hRun] at hLeads
  rcases create_eq_ok hRun with ⟨n, k, _, hMade, hAfter⟩
  have hSame : k = l := by
    have hLocated := hMade.located
    rw [hPlace.located] at hLocated
    cases hLocated
    rfl
  have hNew :
      after.files =
        w.files.put l (.directory privateMode) := by
    rw [hAfter, hSame, World.report_files]
  refine ⟨hLeads, hLeads.files hFiles, ?_⟩
  rw [hNew, Files.Tree.cut_put List.prefix_rfl,
    hFiles.cut_eq_self hPlace.free]

section

variable {α : Type}
variable {start : String}
variable {parent : Option Path}
variable {body : Path → Act α}

/-
  What is done in a workspace either finds no place for one,
  or ends with the closing of the workspace, if what is done
  holds it.
-/
theorem within_cases
    (hFiles : w.files.WellFormed)
    (hBody :
      ∀ n l v,
        let ws :=
          Path.ofText
            (nameAt (directoryOf w parent) start n)
        w.files.HasPlace w.cwd ws.text l →
        w.Holds l v →
        w.Holds l ((body ws).runIn v).2) :
    ((within start parent body).runIn w).2.files =
        w.files ∨
      ∃ n l v,
        let ws :=
          Path.ofText
            (nameAt (directoryOf w parent) start n)
        w.files.HasPlace w.cwd ws.text l ∧
          w.Holds l v ∧
          ((within start parent body).runIn w).2 =
            close ws v := by
  rw [within, Act.runIn_bind]
  cases hRun : (create start parent).runIn w with
  | mk result made =>
      cases result with
      | error f =>
          have hAfter := (create_eq_error hRun).1
          left
          rw [hAfter]
      | ok ws =>
          rcases create_eq_ok hRun with
            ⟨n, l, hPath, hPlace, _⟩
          have hMade := holds_create hFiles hPlace hRun
          rw [hPath] at hPlace
          have hHeld := hBody n l made hPlace hMade
          right
          refine ⟨n, l, _, hPlace, hHeld, ?_⟩
          simp only [Act.runIn_ensuring, hPath]

/-
  What is done in a workspace leaves the files from before,
  if it holds the workspace and the removal does not fail.
-/
theorem within_files
    (hFiles : w.files.WellFormed)
    (hBody :
      ∀ n l v,
        let ws :=
          Path.ofText
            (nameAt (directoryOf w parent) start n)
        w.files.HasPlace w.cwd ws.text l →
        w.Holds l v →
        w.Holds l ((body ws).runIn v).2)
    (hCleared :
      w.Cleared ((within start parent body).runIn w).2) :
    ((within start parent body).runIn w).2.files =
      w.files := by
  rcases within_cases hFiles hBody with
    hSame | ⟨n, l, v, hPlace, hHeld, hClosed⟩
  · exact hSame
  · rw [hClosed] at hCleared ⊢
    have hSplit :=
      hCleared.split hHeld.leads (leads_close _ v)
    exact close_files hFiles hPlace hHeld hSplit.2

/-
  It leaves alone what lies in no free place for such a
  workspace, whether the removal fails or not.
-/
theorem within_outside
    {m : Files.Location}
    (hFiles : w.files.WellFormed)
    (hBody :
      ∀ n l v,
        let ws :=
          Path.ofText
            (nameAt (directoryOf w parent) start n)
        w.files.HasPlace w.cwd ws.text l →
        w.Holds l v →
        w.Holds l ((body ws).runIn v).2)
    (hOutside :
      ∀ n,
        let place :=
          Files.destination w.cwd
            (Path.ofText
              (nameAt (directoryOf w parent) start n))
        w.files.at? place = none →
        ¬ place <+: m) :
    ((within start parent body).runIn w).2.files.at? m =
      w.files.at? m := by
  rcases within_cases hFiles hBody with
    hSame | ⟨n, l, v, hPlace, hHeld, hClosed⟩
  · rw [hSame]
  · have hHere := Files.Tree.locate_eq_ok hPlace.located
    have hBelow :=
      Files.Tree.ne_nil_of_at?_eq_none hPlace.free
    have hApart : ¬ l <+: m := by
      have hFree := hPlace.free
      rw [hHere,
        Path.ofText_text (Path.isNormal_ofText _)] at hFree ⊢
      exact hOutside n hFree
    have hKept : v.files.at? m = w.files.at? m := by
      apply Files.Tree.at?_eq_of_cut_eq hBelow _ hApart
      rw [hHeld.cut, hFiles.cut_eq_self hPlace.free]
    rw [← hHeld.leads.cwd] at hHere
    have hClosing :=
      close_sameOutside_of_ne_nil hHere.symm hBelow
    rw [hClosed, ← hKept]
    exact (hClosing m
      (Files.Tree.isPrefixOf_eq_false_iff.mpr hApart)).symm

end

end Workspace

end LocalCert
