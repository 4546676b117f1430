import LocalCert.Proofs.Tool.Locality
import LocalCert.Proofs.Workspace.Names
import LocalCert.Proofs.World.Abreast
import LocalCert.Workspace.Stack

/-
  Workspaces that are opened inside one another.  Each one
  is a new directory of its own; leaving one removes what
  stands at its place and below, nothing else, and passes on
  how its body ended, whatever becomes of the removal.

  Main declarations:
    * `Workspace.Refused`
    * `Workspace.tryNames_outcome`
    * `Workspace.Makes`
    * `Workspace.Stack.Enters`
    * `Workspace.Stack.Leaves`
    * `Workspace.Stack.step_does`
    * `Workspace.Stack.nodup_yielded`
    * `Workspace.Stack.OpenSince`
    * `Workspace.Stack.run_disciplined`
-/

------------------------------------------------------------
-- Names That Are Refused
------------------------------------------------------------

namespace LocalCert

namespace Workspace

/-
  Why no directory is made, if so many names are tried: all
  of them are taken, or one that is not is refused.
-/
inductive Refused
    (w : World)
    (directory start : String)
    (tries : Nat) : Files.Fault → Prop where
  | taken
      (hTaken :
        ∀ n,
          w.namesTried < n →
          n ≤ w.namesTried + tries →
          w.files.makeDirectory w.cwd privateMode
              (nameAt directory start n) =
            .error .alreadyExists) :
      Refused w directory start tries noName
  | refused
      (n : Nat)
      (r : Files.Refusal)
      (hOther : r ≠ .alreadyExists)
      (hRefused :
        w.files.makeDirectory w.cwd privateMode
            (nameAt directory start n) =
          .error r) :
      Refused w directory start tries
        (.ofRefusal r (nameAt directory start n))

variable {directory start : String}
variable {tries : Nat}
variable {w : World}

/- A taken name, and then as many names as are left. -/
theorem Refused.of_taken
    {f : Files.Fault}
    (hTaken :
      w.files.makeDirectory w.cwd privateMode
          (nameAt directory start (w.namesTried + 1)) =
        .error .alreadyExists)
    (hRest :
      Refused { w with namesTried := w.namesTried + 1 }
        directory start tries f) :
    Refused w directory start (tries + 1) f := by
  cases hRest with
  | taken hMore =>
      apply Refused.taken
      intro n hFirst hLast
      by_cases hHere : n = w.namesTried + 1
      · rw [hHere]
        exact hTaken
      · apply hMore n
        · show w.namesTried + 1 < n
          omega
        · show n ≤ w.namesTried + 1 + tries
          omega
  | refused n r hOther hRefused =>
      exact .refused n r hOther hRefused

/-
  A new number is used up for a workspace; if none is made,
  the reason is that of the file system.
-/
theorem tryNames_outcome
    {result : Except Failure Path}
    {after : World}
    (hNul : ∀ n, hasNul (nameAt directory start n) = false)
    (hRun :
      tryNames directory start tries w = (result, after)) :
    match result with
    | .ok _ => w.namesTried < after.namesTried
    | .error f =>
        w.namesTried ≤ after.namesTried ∧
          ∃ fault,
            f = .workspaceNotCreated fault ∧
              Refused w directory start tries fault := by
  induction tries generalizing w with
  | zero =>
      cases hRun
      refine ⟨Nat.le_refl _, noName, rfl, .taken ?_⟩
      intro n hFirst hLast
      omega
  | succ tries ih =>
      have hName := hNul (w.namesTried + 1)
      rw [nameAt] at hName
      simp only [tryNames, hName, Bool.false_eq_true,
        if_false] at hRun
      split at hRun
      · cases hRun
        exact Nat.lt_succ_self _
      · next hTaken =>
          have hLater := ih hRun
          cases result with
          | ok path => exact Nat.lt_of_succ_lt hLater
          | error f =>
              rcases hLater with
                ⟨hMore, fault, hFailure, hRefused⟩
              exact
                ⟨Nat.le_of_succ_le hMore, fault, hFailure,
                  hRefused.of_taken hTaken⟩
      · next r hOther hRefused =>
          cases hRun
          exact
            ⟨Nat.le_succ _, _, rfl,
              .refused _ r hOther hRefused⟩

/- The same of making a workspace, which is reported. -/
theorem create_outcome
    {parent : Option Path}
    {result : Except Failure Path}
    {after : World}
    (hDirectory : hasNul (directoryOf w parent) = false)
    (hStart : hasNul start = false)
    (hRun :
      (create start parent).runIn w = (result, after)) :
    match result with
    | .ok _ => w.namesTried < after.namesTried
    | .error f =>
        w.namesTried ≤ after.namesTried ∧
          ∃ fault,
            f = .workspaceNotCreated fault ∧
              Refused w (directoryOf w parent) start
                maxTries fault := by
  rw [create, Act.runIn_bind, Act.runIn_of] at hRun
  cases hTry :
      tryNames (directoryOf w parent) start maxTries w with
  | mk tried made =>
      have hOutcome :=
        tryNames_outcome
          (fun n => hasNul_nameAt n hDirectory hStart) hTry
      rw [hTry] at hRun
      cases tried with
      | ok path =>
          cases hRun
          simpa only [World.report, apply_ite World.namesTried,
            ite_self] using hOutcome
      | error f =>
          cases hRun
          exact hOutcome

------------------------------------------------------------
-- Entering
------------------------------------------------------------

/-
  Whether a workspace is made at a place: the place was free
  and now is an empty directory for its owner alone, and
  everything else is as it was.
-/
structure Makes
    (before after : World)
    (path : Path)
    (l : Files.Location) : Prop where
  located :
    before.files.locate before.cwd path.text = .ok l
  free : before.files.at? l = none
  leads : after.files.locate after.cwd path.text = .ok l
  made : after.files.at? l = some (.directory 0o700)
  empty :
    ∀ m, l <+: m → m ≠ l → after.files.at? m = none
  others :
    ∀ m, m ≠ l → after.files.at? m = before.files.at? m

theorem makes_create
    {parent : Option Path}
    {after : World}
    {path : Path}
    (hFiles : w.files.WellFormed)
    (hRun :
      (create start parent).runIn w = (.ok path, after)) :
    path =
        Path.ofText
          (nameAt (directoryOf w parent) start
            after.namesTried) ∧
      Makes w after path (Files.destination w.cwd path) := by
  rcases create_eq_ok hRun with
    ⟨n, l, hPath, hPlace, hAfter⟩
  have hNumber : after.namesTried = n := by
    rw [hAfter, World.report_namesTried]
  have hNormal : path.IsNormal := by
    rw [hPath]
    exact Path.isNormal_ofText _
  have hHolds := holds_create hFiles hPlace hRun
  have hMore :=
    hFiles.extends_of_cut_eq hPlace.free hHolds.cut
  have hNode :
      ∀ m,
        after.files.at? m =
          if m = l then
            some (.directory privateMode)
          else
            w.files.at? m := by
    intro m
    rw [hAfter, World.report_files]
    exact Files.Tree.at?_put
      (Files.Tree.ne_nil_of_at?_eq_none hPlace.free)
  refine ⟨by rw [hNumber, hPath], ?_⟩
  rw [hPlace.destination_eq hNormal]
  constructor
  · exact hPlace.located
  · exact hPlace.free
  · rw [hHolds.leads.cwd]
    exact hMore.locate hPlace.located
  · rw [hNode, if_pos rfl]
    rfl
  · intro m hAbove hOther
    rw [hNode, if_neg hOther]
    exact hFiles.at?_eq_none_of_prefix hPlace.free hAbove
  · intro m hOther
    rw [hNode, if_neg hOther]

namespace Stack

/-
  What entering a workspace does: it becomes the innermost,
  or no directory can be made, for a reason that is told,
  and nothing has changed.
-/
inductive Enters
    (before : Stack)
    (start : String)
    (parent : Option Path)
    (r : Result × Stack) : Prop where
  | opened
      (path : Path)
      (hResult : r.1 = .ok (.entered path 0o700))
      (hPaths : r.2.paths = path :: before.paths)
      (hMakes :
        Makes before.world r.2.world path
          (Files.destination before.world.cwd path))
  | refused
      (fault : Files.Fault)
      (hRefused :
        Refused before.world
          (directoryOf before.world parent) start maxTries
          fault)
      (hResult : r.1 = .error (.workspaceNotCreated fault))
      (hPaths : r.2.paths = before.paths)
      (hFiles : r.2.world.files = before.world.files)

/- Whether no text of a step holds the character zero. -/
def IsNulFree : Step → Prop
  | .enter start parent =>
      hasNul start = false ∧
        ∀ path ∈ parent, hasNul path.text = false
  | _ => True

instance
    (t : Step) :
    Decidable (IsNulFree t) :=
  match t with
  | .enter _ _ => inferInstanceAs (Decidable (_ ∧ _))
  | .leave _ => inferInstanceAs (Decidable True)
  | .write _ => inferInstanceAs (Decidable True)
  | .remove => inferInstanceAs (Decidable True)
  | .setRemovalFault _ => inferInstanceAs (Decidable True)
  | .read _ _ => inferInstanceAs (Decidable True)

theorem hasNul_directoryOf
    (hTemp : hasNul w.tempDir = false)
    {parent : Option Path}
    (hParent : ∀ path ∈ parent, hasNul path.text = false) :
    hasNul (directoryOf w parent) = false := by
  cases parent with
  | none => exact hTemp
  | some path => exact hParent path rfl

theorem enters_enter
    (s : Stack)
    {start : String}
    {parent : Option Path}
    (hFiles : s.world.files.WellFormed)
    (hTemp : hasNul s.world.tempDir = false)
    (hFree : IsNulFree (.enter start parent)) :
    s.Enters start parent (s.enter start parent) := by
  have hDirectory := hasNul_directoryOf hTemp hFree.2
  unfold enter
  cases hRun : (create start parent).runIn s.world with
  | mk result after =>
      cases result with
      | ok path =>
          have hMakes := (makes_create hFiles hRun).2
          apply Enters.opened path
          · simp only [modeAt, hMakes.leads, hMakes.made,
              Option.map_some, Option.getD_some,
              Files.Node.mode]
          · rfl
          · exact hMakes
      | error f =>
          rcases create_outcome hDirectory hFree.1 hRun with
            ⟨_, fault, rfl, hRefused⟩
          apply Enters.refused fault hRefused
          · rfl
          · rfl
          · rw [(create_eq_error hRun).1]

------------------------------------------------------------
-- Leaving
------------------------------------------------------------

/- How a body ends that ends with or without a failure. -/
def ended : Option Failure → Except Failure Unit
  | none => .ok ()
  | some f => .error f

/-
  What leaving a workspace does: how its body ended is
  passed on, nothing changes outside its place, and if the
  removal met no fault, the directory is gone with all that
  was below it.
-/
structure Leaves
    (before : Stack)
    (path : Path)
    (outer : List Path)
    (outcome : Option Failure)
    (r : Result × Stack) : Prop where
  passes :
    (leaving path outcome).runIn before.world =
      (ended outcome, r.2.world)
  result :
    r.1 = .ok (if outcome.isSome then .passedOn else .left)
  paths : r.2.paths = outer
  outside :
    before.world.files.SameOutside
      (Files.destination before.world.cwd path)
      r.2.world.files
  removed :
    r.2.world.faultsMet = before.world.faultsMet →
    before.world.files.HasDirectory
        (Files.destination before.world.cwd path) ∧
      ∀ m,
        Files.destination before.world.cwd path <+: m →
        r.2.world.files.at? m = none
  gone :
    before.world.files.at?
        (Files.destination before.world.cwd path) = none →
    r.2.world.files = before.world.files

/- Leaving passes on how the body ended, and closes. -/
theorem runIn_leaving
    (path : Path)
    (outcome : Option Failure)
    (w : World) :
    (leaving path outcome).runIn w =
      (ended outcome, close path w) := by
  cases outcome <;> rfl

theorem leave_eq
    (path : Path)
    (outer : List Path)
    (outcome : Option Failure)
    (w : World) :
    leave path outer outcome w =
      (.ok (if outcome.isSome then .passedOn else .left),
        ⟨outer, close path w⟩) := by
  cases outcome <;> rfl

theorem leaves_leave
    {s : Stack}
    {path : Path}
    {outer : List Path}
    (outcome : Option Failure)
    (hNormal : path.IsNormal)
    (hBelow : Files.destination s.world.cwd path ≠ []) :
    s.Leaves path outer outcome
      (leave path outer outcome s.world) := by
  have hHere :
      Files.destination s.world.cwd (Path.ofText path.text) =
        Files.destination s.world.cwd path := by
    rw [Path.ofText_text hNormal]
  rw [leave_eq]
  constructor
  · exact runIn_leaving path outcome s.world
  · rfl
  · rfl
  · exact close_sameOutside_of_ne_nil hHere hBelow
  · intro hFaults
    rcases close_files_of_no_fault hHere hFaults with
      ⟨hDirectory, hCut⟩
    refine ⟨hDirectory, ?_⟩
    intro m hAbove
    rw [hCut, Files.Tree.at?_cut hBelow, if_pos hAbove]
  · intro hFree
    exact close_files_of_free hHere hFree

------------------------------------------------------------
-- Single Steps
------------------------------------------------------------

/- The path of a new workspace that a result tells of. -/
def entered? : Result → Option Path
  | .ok (.entered path _) => some path
  | _ => none

/- What a step does with the open workspaces. -/
def Does
    (before : Stack)
    (r : Result × Stack) : Step → Prop
  | .enter start parent => before.Enters start parent r
  | .leave outcome =>
      ∀ path outer,
        before.paths = path :: outer →
        before.Leaves path outer outcome r
  | _ => r.2.paths = before.paths

/-
  Whether the steps with a stack do what they should: its
  files are well-formed, and its workspaces have been made.
-/
structure Sound
    (s : Stack) : Prop where
  files : s.world.files.WellFormed
  tempDir : hasNul s.world.tempDir = false
  paths :
    ∀ path ∈ s.paths,
      ∃ directory start n,
        path = Path.ofText (nameAt directory start n)

/- Whether a world comes of another one by steps. -/
structure Lasts
    (before after : World) : Prop where
  cwd : after.cwd = before.cwd
  tempDir : after.tempDir = before.tempDir
  namesTried : before.namesTried ≤ after.namesTried
  files : before.files.WellFormed → after.files.WellFormed

variable {s : Stack}
variable {t : Step}

theorem Lasts.of_leads
    {before after : World}
    (hLeads : before.Leads after)
    (hTried : before.namesTried ≤ after.namesTried) :
    Lasts before after where
  cwd := hLeads.cwd
  tempDir := hLeads.tempDir
  namesTried := hTried
  files := hLeads.files

theorem step_leave
    {path : Path}
    {outer : List Path}
    (outcome : Option Failure)
    (hPaths : s.paths = path :: outer) :
    s.step (.leave outcome) =
      leave path outer outcome s.world := by
  rcases s with ⟨paths, world⟩
  subst hPaths
  rfl

theorem step_does
    (hSound : s.Sound)
    (hFree : IsNulFree t) :
    s.Does (s.step t) t := by
  cases t with
  | enter start parent =>
      exact enters_enter s hSound.files hSound.tempDir hFree
  | leave outcome =>
      intro path outer hPaths
      have hNamed :
          ∃ directory start n,
            path = Path.ofText (nameAt directory start n) := by
        apply hSound.paths
        rw [hPaths]
        exact List.mem_cons_self
      rcases hNamed with ⟨directory, start, n, hPath⟩
      have hNormal : path.IsNormal := by
        rw [hPath]
        exact Path.isNormal_ofText _
      have hBelow :
          Files.destination s.world.cwd path ≠ [] := by
        rw [hPath]
        exact (leadsToNumber_nameAt _ directory start n).ne_nil
      rw [step_leave outcome hPaths]
      exact leaves_leave outcome hNormal hBelow
  | setRemovalFault words => rfl
  | write contents | remove | read key cert =>
      unfold Does step
      rcases s with ⟨_ | ⟨path, outer⟩, w⟩ <;> dsimp only

/- Reading changes nothing and enters no workspace. -/
theorem read_spec
    (path : Path)
    (key cert : String)
    (w : World) :
    entered? (read path key cert w).1 = none ∧
      (read path key cert w).2 = w := by
  have hWorld :=
    readMaterial_world (Path.ofText (inside path key)).text
      (Path.ofText (inside path cert)).text w
  unfold read
  dsimp only
  generalize
    (readMaterial (Path.ofText (inside path key)).text
      (Path.ofText (inside path cert)).text).runIn w =
      answer at hWorld ⊢
  rcases answer with ⟨result, after⟩
  cases result with
  | ok m => exact ⟨rfl, hWorld⟩
  | error f => exact ⟨rfl, hWorld⟩

theorem step_read
    (path : Path)
    (outer : List Path)
    (key cert : String)
    (w : World) :
    step ⟨path :: outer, w⟩ (.read key cert) =
      ((read path key cert w).1,
        ⟨path :: outer, (read path key cert w).2⟩) := by
  unfold step
  dsimp only

/- Steps that enter no workspace. -/
theorem step_of_not_enter
    (hOther : ∀ start parent, t ≠ .enter start parent) :
    entered? (s.step t).1 = none ∧
      (s.step t).2.paths <:+ s.paths ∧
      Lasts s.world (s.step t).2.world := by
  rcases s with ⟨_ | ⟨path, outer⟩, w⟩
  · cases t with
    | enter start parent => exact absurd rfl (hOther _ _)
    | _ => exact ⟨rfl, List.suffix_rfl, ⟨rfl, rfl, le_rfl, id⟩⟩
  · cases t with
    | enter start parent => exact absurd rfl (hOther _ _)
    | leave outcome =>
        rw [step_leave outcome rfl, leave_eq]
        refine ⟨?_, List.suffix_cons _ _, ?_⟩
        · cases outcome <;> rfl
        · apply Lasts.of_leads (leads_close path w)
          exact (close_namesTried path w).ge
    | write contents =>
        refine ⟨rfl, List.suffix_rfl, ⟨rfl, rfl, le_rfl, ?_⟩⟩
        intro hFiles
        exact Files.Tree.WellFormed.placeAll hFiles _
    | remove =>
        refine ⟨rfl, List.suffix_rfl, ⟨rfl, rfl, le_rfl, ?_⟩⟩
        exact Files.Tree.WellFormed.removeAll
    | setRemovalFault words =>
        exact ⟨rfl, List.suffix_rfl, ⟨rfl, rfl, le_rfl, id⟩⟩
    | read key cert =>
        rcases read_spec path key cert w with
          ⟨hEntered, hWorld⟩
        rw [step_read]
        refine ⟨hEntered, List.suffix_rfl, ?_⟩
        simp only [hWorld]
        exact ⟨rfl, rfl, le_rfl, id⟩

/-
  What a step does with the stack: it opens a workspace with
  a number of its own, or takes some away or none.
-/
inductive Moves
    (s : Stack)
    (t : Step)
    (r : Result × Stack) : Prop where
  | opens
      (directory start : String)
      (parent : Option Path)
      (n : Nat)
      (hStep : t = .enter start parent)
      (hEntered :
        entered? r.1 =
          some (Path.ofText (nameAt directory start n)))
      (hPaths :
        r.2.paths =
          Path.ofText (nameAt directory start n) :: s.paths)
      (hNew : s.world.namesTried < n)
      (hTried : n ≤ r.2.world.namesTried)
  | stays
      (hEntered : entered? r.1 = none)
      (hPaths : r.2.paths <:+ s.paths)

theorem enter_moves
    {start : String}
    {parent : Option Path}
    (hSound : s.Sound)
    (hFree : IsNulFree (.enter start parent)) :
    Lasts s.world (s.enter start parent).2.world ∧
      s.Moves (.enter start parent)
        (s.enter start parent) := by
  have hDirectory :=
    hasNul_directoryOf hSound.tempDir hFree.2
  have hLeads := keeps_leads_create start parent s.world
  unfold enter
  cases hRun : (create start parent).runIn s.world with
  | mk result after =>
      have hOutcome :=
        create_outcome hDirectory hFree.1 hRun
      rw [hRun] at hLeads
      cases result with
      | ok path =>
          have hPath := (makes_create hSound.files hRun).1
          refine
            ⟨.of_leads hLeads (Nat.le_of_lt hOutcome), ?_⟩
          rw [hPath]
          exact .opens _ start parent after.namesTried rfl rfl
            rfl hOutcome le_rfl
      | error f =>
          exact
            ⟨.of_leads hLeads hOutcome.1,
              .stays rfl List.suffix_rfl⟩

theorem step_moves
    (hSound : s.Sound)
    (hFree : IsNulFree t) :
    Lasts s.world (s.step t).2.world ∧
      s.Moves t (s.step t) := by
  by_cases hEnter : ∃ start parent, t = .enter start parent
  · rcases hEnter with ⟨start, parent, rfl⟩
    exact enter_moves hSound hFree
  · have hOther :
        ∀ start parent, t ≠ .enter start parent := by
      intro start parent hStep
      exact hEnter ⟨start, parent, hStep⟩
    rcases step_of_not_enter (s := s) hOther with
      ⟨hEntered, hPaths, hLasts⟩
    exact ⟨hLasts, .stays hEntered hPaths⟩

/- Steps of a sound stack leave a sound one. -/
theorem Sound.next
    (hSound : s.Sound)
    (hFree : IsNulFree t) :
    (s.step t).2.Sound := by
  rcases step_moves hSound hFree with ⟨hLasts, hMoves⟩
  constructor
  · exact hLasts.files hSound.files
  · rw [hLasts.tempDir]
    exact hSound.tempDir
  · intro path hPath
    cases hMoves with
    | opens directory start parent n _ _ hPaths =>
        rw [hPaths, List.mem_cons] at hPath
        rcases hPath with hNew | hOld
        · exact ⟨directory, start, n, hNew⟩
        · exact hSound.paths path hOld
    | stays _ hPaths =>
        exact hSound.paths path (hPaths.mem hPath)

------------------------------------------------------------
-- Runs
------------------------------------------------------------

/- The stack after steps. -/
def after
    (s : Stack)
    (steps : List Step) : Stack :=
  steps.foldl (fun s t => (s.step t).2) s

theorem after_concat
    (s : Stack)
    (steps : List Step)
    (t : Step) :
    s.after (steps ++ [t]) = ((s.after steps).step t).2 := by
  simp [after]

theorem run_cons
    (s : Stack)
    (t : Step)
    (ts : List Step) :
    s.run (t :: ts) = s.step t :: (s.step t).2.run ts := by
  simp only [run]

/- A run gives what each step does after those before it. -/
theorem getElem?_run
    (s : Stack)
    (done : List Step)
    (t : Step)
    (rest : List Step) :
    (s.run (done ++ t :: rest))[done.length]? =
      some ((s.after done).step t) := by
  induction done generalizing s with
  | nil =>
      rw [List.nil_append, run_cons]
      exact List.getElem?_cons_zero
  | cons u us ih =>
      rw [List.cons_append, run_cons]
      exact ih (s.step u).2

theorem sound_after
    {steps : List Step}
    (hSound : s.Sound)
    (hFree : ∀ t ∈ steps, IsNulFree t) :
    (s.after steps).Sound ∧
      (s.after steps).world.cwd = s.world.cwd := by
  induction steps generalizing s with
  | nil => exact ⟨hSound, rfl⟩
  | cons t ts ih =>
      rcases List.forall_mem_cons.mp hFree with
        ⟨hFirst, hRest⟩
      rcases ih (hSound.next hFirst) hRest with
        ⟨hAfter, hCwd⟩
      exact
        ⟨hAfter,
          hCwd.trans (step_moves hSound hFirst).1.cwd⟩

/- The paths of all workspaces that are made in a run. -/
def yielded
    (results : List (Result × Stack)) : List Path :=
  results.filterMap (fun r => entered? r.1)

theorem yielded_run_cons
    (s : Stack)
    (t : Step)
    (ts : List Step) :
    yielded (s.run (t :: ts)) =
      (entered? (s.step t).1).toList ++
        yielded ((s.step t).2.run ts) := by
  rw [run_cons, yielded, List.filterMap_cons]
  cases entered? (s.step t).1 <;> rfl

/- Workspaces that are made later have greater numbers. -/
theorem exists_number_of_mem_yielded
    {steps : List Step}
    {path : Path}
    (hSound : s.Sound)
    (hFree : ∀ t ∈ steps, IsNulFree t)
    (hPath : path ∈ yielded (s.run steps)) :
    ∃ n,
      s.world.namesTried < n ∧
        LeadsToNumber n
          (Files.destination s.world.cwd path) := by
  induction steps generalizing s with
  | nil => cases hPath
  | cons t ts ih =>
      rcases List.forall_mem_cons.mp hFree with
        ⟨hFirst, hRest⟩
      rcases step_moves hSound hFirst with ⟨hLasts, hMoves⟩
      have hLater :
          path ∈ yielded ((s.step t).2.run ts) →
          ∃ n,
            s.world.namesTried < n ∧
              LeadsToNumber n
                (Files.destination s.world.cwd path) := by
        intro hMember
        rcases ih (hSound.next hFirst) hRest hMember with
          ⟨n, hNew, hNumber⟩
        rw [hLasts.cwd] at hNumber
        exact
          ⟨n, Nat.lt_of_le_of_lt hLasts.namesTried hNew,
            hNumber⟩
      cases hMoves with
      | opens directory start parent n _ hEntered _ hNew =>
          rw [yielded_run_cons, hEntered, Option.toList_some,
            List.singleton_append, List.mem_cons] at hPath
          rcases hPath with rfl | hMember
          · exact
              ⟨n, hNew, leadsToNumber_nameAt _ _ start n⟩
          · exact hLater hMember
      | stays hEntered =>
          rw [yielded_run_cons, hEntered] at hPath
          exact hLater hPath

/- No two workspaces of a run are made at one place. -/
theorem nodup_yielded
    {steps : List Step}
    (hSound : s.Sound)
    (hFree : ∀ t ∈ steps, IsNulFree t) :
    ((yielded (s.run steps)).map
      (Files.destination s.world.cwd)).Nodup := by
  induction steps generalizing s with
  | nil => exact List.nodup_nil
  | cons t ts ih =>
      rcases List.forall_mem_cons.mp hFree with
        ⟨hFirst, hRest⟩
      rcases step_moves hSound hFirst with ⟨hLasts, hMoves⟩
      have hNext := hSound.next hFirst
      have hLater := ih hNext hRest
      rw [hLasts.cwd] at hLater
      cases hMoves with
      | opens directory start parent n _ hEntered _ _ hTried =>
          rw [yielded_run_cons, hEntered, Option.toList_some,
            List.singleton_append, List.map_cons,
            List.nodup_cons]
          refine ⟨?_, hLater⟩
          -- A later one at this place would have its number.
          intro hAgain
          rcases List.mem_map.mp hAgain with
            ⟨path, hMember, hSame⟩
          rcases exists_number_of_mem_yielded hNext hRest
              hMember with ⟨m, hMore, hNumber⟩
          rw [hLasts.cwd, hSame] at hNumber
          have hEqual :=
            hNumber.unique
              (leadsToNumber_nameAt _ directory start n)
          omega
      | stays hEntered =>
          rw [yielded_run_cons, hEntered]
          exact hLater

------------------------------------------------------------
-- Matching Steps
------------------------------------------------------------

/-
  Whether a workspace was made on top of others by one of
  the steps, and has been open from then on.
-/
def OpenSince
    (first : Stack)
    (done : List Step)
    (path : Path)
    (outer : List Path) : Prop :=
  ∃ front start parent middle,
    done = front ++ .enter start parent :: middle ∧
      (first.after front).paths = outer ∧
      entered?
          ((first.after front).step
            (.enter start parent)).1 =
        some path ∧
      ∀ n,
        path :: outer <:+
          (first.after
            (front ++
              .enter start parent :: middle.take n)).paths

variable {first : Stack}
variable {done : List Step}
variable {path : Path}
variable {outer : List Path}

/- It is open for one more step that leaves it open. -/
theorem OpenSince.concat
    (hOpen : first.OpenSince done path outer)
    (hStill :
      path :: outer <:+ (first.after (done ++ [t])).paths) :
    first.OpenSince (done ++ [t]) path outer := by
  rcases hOpen with
    ⟨front, start, parent, middle, rfl, hOuter, hEntered,
      hSince⟩
  refine
    ⟨front, start, parent, middle ++ [t], by simp, hOuter,
      hEntered, ?_⟩
  intro n
  by_cases hEarlier : n ≤ middle.length
  · rw [List.take_append_of_le_length hEarlier]
    exact hSince n
  · have hAll : (middle ++ [t]).take n = middle ++ [t] := by
      apply List.take_of_length_le
      rw [List.length_append, List.length_singleton]
      omega
    rw [hAll]
    simpa using hStill

/- Every open workspace was made and has been open since. -/
theorem openSince_of_suffix
    (hSound : first.Sound)
    (hEmpty : first.paths = [])
    (hFree : ∀ t ∈ done, IsNulFree t)
    (hThere : path :: outer <:+ (first.after done).paths) :
    first.OpenSince done path outer := by
  induction done using List.reverseRecOn with
  | nil =>
      have hNone : path :: outer <:+ first.paths := hThere
      rw [hEmpty] at hNone
      cases List.suffix_nil.mp hNone
  | append_singleton done t ih =>
      have hDone : ∀ u ∈ done, IsNulFree u := by
        intro u hMember
        exact hFree u (List.mem_append_left [t] hMember)
      have hLast : IsNulFree t := by
        apply hFree
        exact List.mem_append_right done List.mem_cons_self
      have hBefore := (sound_after hSound hDone).1
      have hStill := hThere
      rw [after_concat] at hThere
      -- The last step made the workspace, or it was open
      -- before that step as well.
      cases (step_moves hBefore hLast).2 with
      | stays _ hPaths =>
          exact
            (ih hDone (hThere.trans hPaths)).concat hStill
      | opens directory start parent n hStep hEntered
          hPaths =>
          rw [hPaths, List.suffix_cons_iff] at hThere
          rcases hThere with hNew | hOld
          · cases hNew
            subst hStep
            refine
              ⟨done, start, parent, [], rfl, rfl, hEntered,
                ?_⟩
            intro k
            rw [List.take_nil]
            exact hStill.trans List.suffix_rfl
          · exact (ih hDone hOld).concat hStill

------------------------------------------------------------
-- Runs Of Steps
------------------------------------------------------------

/-
  In every run of steps, entering makes a workspace where
  nothing was or changes nothing, and leaving removes the
  innermost one, which was made by the step that matches,
  and passes on how its body ended.  No two workspaces of a
  run have the same path, or are made at the same place.
-/
theorem run_disciplined
    (w : World)
    (steps : List Step)
    (hFiles : w.files.WellFormed)
    (hTemp : hasNul w.tempDir = false)
    (hFree : ∀ t ∈ steps, IsNulFree t) :
    let first : Stack := ⟨[], w⟩
    let paths := yielded (first.run steps)
    paths.Nodup ∧
      (paths.map (Files.destination w.cwd)).Nodup ∧
      ∀ done t rest,
        steps = done ++ t :: rest →
        let before := first.after done
        let r := before.step t
        (first.run steps)[done.length]? = some r ∧
          before.Does r t ∧
          ∀ path outer,
            before.paths = path :: outer →
            first.OpenSince done path outer := by
  intro first paths
  have hSound : first.Sound :=
    { files := hFiles
      tempDir := hTemp
      paths := by
        intro path hPath
        cases hPath }
  have hPlaces := nodup_yielded hSound hFree
  refine ⟨hPlaces.of_map, hPlaces, ?_⟩
  rintro done t rest rfl before r
  rw [List.forall_mem_append, List.forall_mem_cons] at hFree
  have hBefore := (sound_after hSound hFree.1).1
  refine
    ⟨getElem?_run first done t rest,
      step_does hBefore hFree.2.1, ?_⟩
  intro path outer hPaths
  apply openSince_of_suffix hSound rfl hFree.1
  exact ⟨[], hPaths.symm⟩

/-
  One workspace inside another one, a parent that is not
  there, a failure that leaves a body, a removal that fails
  and one that comes too late.
-/
theorem run_disciplined_of_nested :
    let w : World :=
      { files := ⟨[(["tmp"], .directory 0o777)]⟩
        cwd := []
        tempDir := "/tmp" }
    let inner : Path := ⟨.root, ["tmp", "a-ws000001"]⟩
    let steps : List Step :=
      [.enter "a-" none, .enter "b-" (some inner),
        .write [("key.pem", .ofText "KEY")],
        .enter "c-" (some ⟨.root, ["gone"]⟩),
        .leave (some (.runtime "stop")),
        .setRemovalFault (some "busy"), .enter "d-" none,
        .leave none, .setRemovalFault none, .remove,
        .leave none]
    let first : Stack := ⟨[], w⟩
    (∀ t ∈ steps, IsNulFree t) ∧
      (first.run steps).map (fun r => r.1) =
        [.ok (.entered inner 0o700),
          .ok (.entered (inner.child "b-ws000002") 0o700),
          .ok .nothing,
          .error
            (.workspaceNotCreated
              (.ofRefusal .missing "/gone/c-ws000003")),
          .ok .passedOn, .ok .nothing,
          .ok
            (.entered ⟨.root, ["tmp", "d-ws000004"]⟩ 0o700),
          .ok .left, .ok .nothing, .ok .nothing,
          .ok .left] ∧
      (yielded (first.run steps)).Nodup ∧
      ∀ done t rest,
        steps = done ++ t :: rest →
        (first.after done).Does ((first.after done).step t)
          t := by
  intro w inner steps first
  have hFree : ∀ t ∈ steps, IsNulFree t := by
    decide
  have hRun :=
    run_disciplined w steps (by decide) (by decide) hFree
  refine ⟨hFree, by decide +kernel, hRun.1, ?_⟩
  intro done t rest hSteps
  exact (hRun.2.2 done t rest hSteps).2.1

end Stack

end Workspace

end LocalCert
