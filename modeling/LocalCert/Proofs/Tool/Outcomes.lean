import LocalCert.Proofs.Tool.Sequence

/-
  The one result of every way in which a process can end: a
  process that ends by itself with the code zero gives what
  it printed, and any other one is a failure of its stage,
  with either an exit code or a cause.

  Main declarations:
    * `Text.IsTrimOf`
    * `Ending.fault?`
    * `Ending.NotFound`
    * `Tool.Reports`
    * `Tool.outcome_reports`
    * `Tool.run_gives_one_result`
-/

------------------------------------------------------------
-- Texts Without Margins
------------------------------------------------------------

namespace LocalCert

namespace Text

/-
  Whether a text is another one without the blanks at both
  of its ends.
-/
structure IsTrimOf
    (s t : String) : Prop where
  margins :
    ∃ front back,
      t.toList = front ++ s.toList ++ back ∧
        (∀ c ∈ front, isBlank c = true) ∧
        ∀ c ∈ back, isBlank c = true
  first : ∀ c ∈ s.toList.head?, isBlank c = false
  last : ∀ c ∈ s.toList.getLast?, isBlank c = false

variable {drops : Char → Bool}
variable {cs : List Char}

/- What is left starts with a character that stays. -/
theorem head?_dropWhile
    (drops : Char → Bool)
    (cs : List Char) :
    ∀ c ∈ (cs.dropWhile drops).head?, drops c = false := by
  intro c hChar
  have hFirst := List.head?_dropWhile_not drops cs
  rw [Option.mem_def.mp hChar] at hFirst
  exact hFirst

/- What is dropped at the end stands behind what is left. -/
theorem reverse_dropWhile_append
    (drops : Char → Bool)
    (cs : List Char) :
    (cs.reverse.dropWhile drops).reverse ++
        (cs.reverse.takeWhile drops).reverse =
      cs := by
  rw [← List.reverse_append,
    List.takeWhile_append_dropWhile, List.reverse_reverse]

/- Trimming keeps all but the margins. -/
theorem exists_margins
    (drops : Char → Bool)
    (cs : List Char) :
    ∃ front back,
      cs = front ++ trimBy drops cs ++ back ∧
        (∀ c ∈ front, drops c = true) ∧
        ∀ c ∈ back, drops c = true := by
  refine
    ⟨cs.takeWhile drops,
      ((cs.dropWhile drops).reverse.takeWhile drops).reverse,
      ?_, ?_, ?_⟩
  · rw [trimBy, List.append_assoc, reverse_dropWhile_append,
      List.takeWhile_append_dropWhile]
  · exact List.all_eq_true.mp List.all_takeWhile
  · intro c hChar
    exact List.all_eq_true.mp List.all_takeWhile c
      (List.mem_reverse.mp hChar)

/- Neither end of what is left is to go. -/
theorem head?_trimBy :
    ∀ c ∈ (trimBy drops cs).head?, drops c = false := by
  intro c hChar
  apply head?_dropWhile drops cs
  rw [← reverse_dropWhile_append drops
    (cs.dropWhile drops), List.head?_append]
  rw [trimBy, Option.mem_def] at hChar
  rw [hChar]
  rfl

theorem getLast?_trimBy :
    ∀ c ∈ (trimBy drops cs).getLast?, drops c = false := by
  rw [trimBy, List.getLast?_reverse]
  exact head?_dropWhile drops _

theorem isTrimOf_trim
    (t : String) :
    IsTrimOf (trim t) t := by
  have hTrim :
      (trim t).toList = trimBy isBlank t.toList :=
    String.toList_ofList
  refine ⟨?_, ?_, ?_⟩
  · rw [hTrim]
    exact exists_margins isBlank t.toList
  · rw [hTrim]
    exact head?_trimBy
  · rw [hTrim]
    exact getLast?_trimBy

end Text

------------------------------------------------------------
-- Ways To End
------------------------------------------------------------

/- The fault with which a process could not be started. -/
def Ending.fault? : Ending → Option Files.Fault
  | .fault f => some f
  | .raised (.fault f) _ => some f
  | _ => none

/-
  Whether a process ended because there is no such tool: the
  fault with the number two.
-/
def Ending.NotFound
    (e : Ending) : Prop :=
  e = .missing ∨
    ∃ reason file, e.fault? = some (.coded 2 reason file)

theorem Files.Fault.category_eq_missing_iff
    {f : Fault} :
    f.category = .missing ↔
      ∃ reason file, f = .coded 2 reason file := by
  cases f with
  | described text => simp [category]
  | coded code reason file =>
      have hCode :
          categoryOfCode code = .missing ↔ code = 2 := by
        constructor
        · intro hMissing
          by_cases hTwo : code = 2
          · exact hTwo
          · have hOther : (code == 2) = false := by
              simpa using hTwo
            simp only [categoryOfCode, hOther,
              Bool.false_eq_true, if_false] at hMissing
            repeat' (split at hMissing)
            all_goals cases hMissing
        · rintro rfl
          rfl
      simp [category, hCode]

namespace Tool

/-
  What a failure says of a process that did not succeed.  It
  has an exit code exactly if the process ended by itself,
  and then what the process complained of; otherwise it has
  a cause.
-/
structure Reports
    (c : Command)
    (tool : String)
    (e : Ending)
    (t : ToolFailure) : Prop where
  kind_eq : (Failure.tool t).kind = .tool c.stage
  tool_eq : t.tool = tool
  exit_iff :
    ∀ n, t.exit = some n ↔
      n ≠ 0 ∧ ∃ out err, e = .exit n out err
  complaint :
    ∀ n out err, e = .exit n out err →
      Text.IsTrimOf t.stderr err ∧ t.cause = none
  caused :
    (∀ n out err, e ≠ .exit n out err) →
      t.cause.isSome = true
  unavailable_iff :
    ∀ name, t.cause = some (.unavailable name) ↔
      e.NotFound ∧ name = tool
  timedOut_iff :
    t.cause = some .timedOut ↔ e = .timedOut
  fault_iff :
    ∀ f, t.cause = some (.fault f) ↔
      e.fault? = some f ∧ ¬ e.NotFound
  message_eq :
    t.message =
      c.stage.label ++ " failed (" ++ tool ++
        (t.exit.map
          (fun n => ", exit " ++ Text.intText n)).getD "" ++
        "): " ++ t.stderr

variable {c : Command}
variable {tool : String}
variable {e : Ending}

/- The process ended by itself. -/
theorem reports_exit
    {n : Int}
    (out err : String)
    (hCode : n ≠ 0) :
    Reports c tool (.exit n out err)
      { stage := c.stage
        tool := tool
        stderr := Text.trim err
        exit := some n
        cause := none } where
  kind_eq := rfl
  tool_eq := rfl
  exit_iff m := by
    constructor
    · rintro ⟨⟩
      exact ⟨hCode, out, err, rfl⟩
    · rintro ⟨_, _, _, ⟨⟩⟩
      rfl
  complaint := by
    rintro _ _ _ ⟨⟩
    exact ⟨Text.isTrimOf_trim err, rfl⟩
  caused hNot := (hNot n out err rfl).elim
  unavailable_iff := by
    simp [Ending.NotFound, Ending.fault?]
  timedOut_iff := by simp
  fault_iff := by simp [Ending.fault?]
  message_eq := by
    simp [ToolFailure.message, ToolFailure.status,
      String.append_assoc]

/-
  The process did not end by itself: only the cause is left
  to be compared.
-/
theorem reports_unfinished
    (c : Command)
    (words : String)
    (cause : ToolCause)
    (hNotExit : ∀ n out err, e ≠ .exit n out err)
    (hUnavailable :
      ∀ name, cause = .unavailable name ↔
        e.NotFound ∧ name = tool)
    (hTimedOut : cause = .timedOut ↔ e = .timedOut)
    (hFault :
      ∀ f, cause = .fault f ↔
        e.fault? = some f ∧ ¬ e.NotFound) :
    ∃ t, unfinished c tool words cause = .tool t ∧
      Reports c tool e t := by
  refine ⟨_, rfl, ?_⟩
  exact
    { kind_eq := rfl
      tool_eq := rfl
      exit_iff := by
        rintro n
        constructor
        · rintro ⟨⟩
        · rintro ⟨_, out, err, hExit⟩
          exact (hNotExit n out err hExit).elim
      complaint := by
        intro n out err hExit
        exact (hNotExit n out err hExit).elim
      caused := fun _ => rfl
      unavailable_iff := by simpa using hUnavailable
      timedOut_iff := by simpa using hTimedOut
      fault_iff := by simpa using hFault
      message_eq := by
        simp [ToolFailure.message, ToolFailure.status,
          String.append_assoc] }

/- There is no such tool. -/
theorem reports_notFound
    (c : Command)
    (tool : String)
    (hNotExit : ∀ n out err, e ≠ .exit n out err)
    (hNotTimedOut : e ≠ .timedOut)
    (hNotFound : e.NotFound) :
    ∃ t,
      unfinished c tool (unavailableMessage tool)
          (.unavailable tool) = .tool t ∧
        Reports c tool e t := by
  apply reports_unfinished c _ _ hNotExit
  · simp [hNotFound, eq_comm]
  · simp [hNotTimedOut]
  · simp [hNotFound]

/- The tool could not be started. -/
theorem reports_faulty
    (c : Command)
    (tool : String)
    {f : Files.Fault}
    (hFault : e.fault? = some f) :
    ∃ t, faulty c tool f = .tool t ∧
      Reports c tool e t := by
  have hNotExit : ∀ n out err, e ≠ .exit n out err := by
    rintro n out err rfl
    cases hFault
  have hNotTimedOut : e ≠ .timedOut := by
    rintro rfl
    cases hFault
  have hNotMissing : e ≠ .missing := by
    rintro rfl
    cases hFault
  have hNotFound :
      e.NotFound ↔ f.category = .missing := by
    simp [Ending.NotFound, hNotMissing, hFault,
      Files.Fault.category_eq_missing_iff]
  unfold faulty
  split
  · next hMissing =>
      exact reports_notFound c tool hNotExit hNotTimedOut
        (hNotFound.mpr (by simpa using hMissing))
  · next hOther =>
      have hFound : ¬ e.NotFound := by
        rw [hNotFound]
        simpa using hOther
      apply reports_unfinished c _ _ hNotExit
      · simp [hFound]
      · simp [hNotTimedOut]
      · simp [hFault, hFound]

/- Every way to end but success is reported. -/
theorem outcome_reports
    (c : Command)
    (tool : String)
    (hOrdinary : e.isOrdinary = true)
    (hFails : ∀ out err, e ≠ .exit 0 out err) :
    ∃ t, outcome c tool e = .error (.tool t) ∧
      Reports c tool e t := by
  cases e with
  | exit n out err =>
      have hCode : n ≠ 0 := by
        rintro rfl
        exact hFails out err rfl
      refine ⟨_, ?_, reports_exit out err hCode⟩
      simp [outcome, hCode]
  | missing =>
      rcases reports_notFound c tool (e := .missing)
          (by simp) (by simp) (.inl rfl) with
        ⟨t, hTool, hReports⟩
      exact ⟨t, congrArg Except.error hTool, hReports⟩
  | timedOut =>
      rcases reports_unfinished c (e := .timedOut)
          ("timed out after " ++ c.timeout.text ++ "s")
          .timedOut (by simp)
          (by simp [Ending.NotFound, Ending.fault?])
          (by simp) (by simp [Ending.fault?]) with
        ⟨t, hTool, hReports⟩
      exact ⟨t, congrArg Except.error hTool, hReports⟩
  | fault f =>
      rcases reports_faulty c tool (e := .fault f) rfl with
        ⟨t, hTool, hReports⟩
      exact ⟨t, congrArg Except.error hTool, hReports⟩
  | raised g running =>
      cases g with
      | fault f =>
          rcases reports_faulty c tool
              (e := .raised (.fault f) running) rfl with
            ⟨t, hTool, hReports⟩
          exact ⟨t, congrArg Except.error hTool, hReports⟩
      | _ => cases hOrdinary

/- Success gives what the process printed. -/
theorem outcome_eq_ok_iff
    {done : Completed} :
    outcome c tool e = .ok done ↔
      e = .exit 0 done.stdout done.stderr := by
  constructor
  · intro hOutcome
    cases e with
    | exit n out err =>
        simp only [outcome] at hOutcome
        split at hOutcome
        · next hCode =>
            cases hOutcome
            rw [eq_of_beq hCode]
        · cases hOutcome
    | raised f running => cases f <;> cases hOutcome
    | _ => cases hOutcome
  · rintro rfl
    rfl

------------------------------------------------------------
-- Running
------------------------------------------------------------

/-
  A command starts exactly one process, as it says.  If that
  ends by itself with the code zero, the result is what it
  printed.  If it ends in any other way, the result is a
  failure of the command's stage that reports it.
-/
theorem run_gives_one_result
    {c : Command}
    {tool : String}
    {rest : List String}
    {w : World}
    (hArgv : c.argv = tool :: rest)
    (hOrdinary : (w.behaviourAt 0).ending.isOrdinary = true) :
    let ending := (w.behaviourAt 0).ending
    let result := ((run c).runIn w).1
    ((run c).runIn w).2.calls =
        w.calls ++
          [.process c.argv c.input c.timeout c.cwd] ∧
      (∀ done,
        result = .ok done ↔
          ending = .exit 0 done.stdout done.stderr) ∧
      ((∀ out err, ending ≠ .exit 0 out err) →
        ∃ t, result = .error (.tool t) ∧
          Reports c tool ending t) := by
  intro ending result
  rcases run_spec hArgv w with ⟨hResult, hStarts⟩
  refine ⟨hStarts.calls, ?_, ?_⟩
  · intro done
    rw [show result = _ from hResult]
    exact outcome_eq_ok_iff
  · intro hFails
    rw [show result = _ from hResult]
    exact outcome_reports c tool hOrdinary hFails

/- A step whose tool is ended by a signal. -/
def killedCommand : Command where
  stage := .key
  argv := ["openssl", "ecparam"]
  timeout := .whole 30

/- A world in which the next tool is ended so. -/
def killedWorld : World where
  files := .empty
  cwd := []
  tempDir := "/tmp"
  script := [{ ending := .exit (-9) "" " killed\n" }]

/- It is reported with its code and its trimmed words. -/
theorem run_reports_killed_tool :
    killedCommand.argv = "openssl" :: ["ecparam"] ∧
      (killedWorld.behaviourAt 0).ending.isOrdinary =
        true ∧
      ∃ t,
        ((run killedCommand).runIn killedWorld).1 =
            .error (.tool t) ∧
          t.exit = some (-9) ∧
          t.cause = none ∧
          t.message =
            "key generation failed (openssl, exit -9): " ++
              t.stderr := by
  have hArgv :
      killedCommand.argv = "openssl" :: ["ecparam"] := rfl
  have hOrdinary :
      (killedWorld.behaviourAt 0).ending.isOrdinary =
        true := rfl
  rcases run_gives_one_result hArgv hOrdinary with
    ⟨_, _, hReports⟩
  have hEnding :
      (killedWorld.behaviourAt 0).ending =
        .exit (-9) "" " killed\n" := rfl
  rcases hReports (by simp [hEnding]) with
    ⟨t, hResult, hReport⟩
  rw [hEnding] at hReport
  have hExit : t.exit = some (-9) :=
    (hReport.exit_iff (-9)).mpr
      ⟨by decide, "", " killed\n", rfl⟩
  refine ⟨hArgv, hOrdinary, t, hResult, hExit, ?_, ?_⟩
  · exact (hReport.complaint _ _ _ rfl).2
  · rw [hReport.message_eq, hExit]
    rfl

end Tool

end LocalCert
