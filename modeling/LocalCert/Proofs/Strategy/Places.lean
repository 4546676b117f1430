import LocalCert.Proofs.Strategy.Issuers
import LocalCert.Proofs.Tool.Confinement
import LocalCert.Proofs.Workspace.Names

/-
  Where processes find the files that they are told to
  write.  A process that starts in the workspace reads a
  relative path from there, and the program reads it from
  where it is itself; both mean the same file exactly if the
  directory for workspaces is found from the workspace too.

  Main declarations:
    * `Tool.Command.written`
    * `Tool.Command.FindsFiles`
    * `Issuer.used`
    * `Config.IsFoundInside`
    * `Issuer.processes_find_files_iff`
-/

------------------------------------------------------------
-- The Files Of A Command
------------------------------------------------------------

namespace LocalCert

namespace Tool

/- The flags before a file that a command reads. -/
def inputFlags : List String :=
  ["-key", "-in", "-signkey"]

/- The flags that a value follows. -/
def valueFlags : List String :=
  outputFlags ++ inputFlags ++
    ["-name", "-subj", "-addext", "-days", "-extensions",
      "-extfile"]

/-
  The values of some flags in the words after the name of a
  tool.  The word after a flag with a value is its value,
  whatever it looks like; two hyphens end the flags.
-/
def valuesOf
    (flags : List String) : List String → List String
  | [] => []
  | word :: rest =>
      if word == "--" then
        []
      else if valueFlags.contains word then
        match rest with
        | [] => []
        | value :: rest =>
            if flags.contains word then
              value :: valuesOf flags rest
            else
              valuesOf flags rest
      else
        valuesOf flags rest

namespace Command

/- The paths that a command is told to write to. -/
def written
    (c : Command) : List String :=
  valuesOf outputFlags c.argv.tail

/- The paths that a command is told to read. -/
def read
    (c : Command) : List String :=
  valuesOf inputFlags c.argv.tail

/- The location where a process starts. -/
def startsAt
    (c : Command)
    (here : Files.Location) : Files.Location :=
  match c.cwd with
  | some text => Files.destination here (Path.ofText text)
  | none => here

/-
  Whether the paths to write to mean the same to a process
  as to the program that starts it.
-/
def FindsFiles
    (c : Command)
    (here : Files.Location) : Prop :=
  ∀ path ∈ c.written,
    Files.destination (c.startsAt here) (Path.ofText path) =
      Files.destination here (Path.ofText path)

/- A process that starts where the program is finds all. -/
theorem findsFiles_of_cwd_eq_none
    {c : Command}
    (hCwd : c.cwd = none)
    (here : Files.Location) :
    c.FindsFiles here := by
  intro path _
  rw [startsAt, hCwd]

end Command

/- Some first commands of a sequence are started. -/
theorem exists_started_runAll
    {cs : List Command}
    (hArgv : ∀ c ∈ cs, c.argv ≠ [])
    (w : World) :
    ∃ started,
      started <+: cs ∧ (started = [] → cs = []) ∧
        ((runAll cs).runIn w).2.calls =
          w.calls ++ started.map Command.call := by
  induction cs generalizing w with
  | nil =>
      exact ⟨[], List.prefix_rfl, fun _ => rfl,
        (List.append_nil _).symm⟩
  | cons c cs ih =>
      rcases List.exists_cons_of_ne_nil
          (hArgv c List.mem_cons_self) with
        ⟨tool, words, hWords⟩
      rcases run_spec hWords w with ⟨_, hStarts⟩
      rcases hRun : (run c).runIn w with ⟨result, next⟩
      rw [hRun] at hStarts
      cases result with
      | error f =>
          refine ⟨[c], List.prefix_append [c] cs, ?_, ?_⟩
          · intro hNone
            cases hNone
          · rw [runAll, Act.runIn_bind_error hRun]
            exact hStarts.calls
      | ok done =>
          rcases ih (fun d hd => hArgv d (by simp [hd])) next
            with ⟨started, hPrefix, _, hCalls⟩
          refine ⟨c :: started, ?_, ?_, ?_⟩
          · exact (List.prefix_cons_inj c).mpr hPrefix
          · intro hNone
            cases hNone
          · rw [runAll, Act.runIn_bind_ok hRun, hCalls,
              hStarts.calls]
            simp

end Tool

------------------------------------------------------------
-- Directories For Workspaces
------------------------------------------------------------

/- The directory in which workspaces are made. -/
def Config.place
    (config : Config)
    (w : World) : Path :=
  Path.ofText (Workspace.directoryOf w config.workspaceDir)

/-
  Whether the directory for workspaces, read from within a
  workspace, is the one that is meant.
-/
def Config.IsFoundInside
    (config : Config)
    (w : World)
    (ws : Path) : Prop :=
  Files.destination (Files.destination w.cwd ws)
      (config.place w) =
    Files.destination w.cwd (config.place w)

namespace Issuer

section

variable {i : Issuer}
variable {config : Config}
variable {hostname : String}
variable {w made : World}
variable {ws : Path}

theorem start_mem_starts
    (i : Issuer) :
    i.start ∈ Workspace.starts := by
  cases i <;> decide

/- A workspace is a name in the directory for them. -/
theorem eq_child_of_create
    (hCreate :
      (Workspace.create i.start config.workspaceDir).runIn
        w = (.ok ws, made)) :
    ∃ name,
      ws = (config.place w).child name ∧
        Path.IsPart name ∧ name ≠ ".." := by
  rcases Workspace.create_eq_ok hCreate with
    ⟨n, _, hPath, _, _⟩
  exact
    ⟨_,
      hPath.trans
        (Workspace.ofText_nameAt n i.start_mem_starts),
      Workspace.isPart_name n i.start_mem_starts⟩

theorem isNormal_of_create
    (hCreate :
      (Workspace.create i.start config.workspaceDir).runIn
        w = (.ok ws, made)) :
    ws.IsNormal := by
  rcases eq_child_of_create hCreate with
    ⟨name, rfl, hName, _⟩
  exact (Path.isNormal_ofText _).child hName

/- The directory is found as the workspace itself is. -/
theorem isFoundInside_iff
    (hCreate :
      (Workspace.create i.start config.workspaceDir).runIn
        w = (.ok ws, made)) :
    config.IsFoundInside w ws ↔
      Files.destination (Files.destination w.cwd ws) ws =
        Files.destination w.cwd ws := by
  rcases eq_child_of_create hCreate with
    ⟨name, hChild, _, hUp⟩
  have hFrom :
      ∀ here,
        Files.destination here ws =
          Files.destination here (config.place w) ++
            [name] := by
    intro here
    rw [hChild, Files.destination_child here _ hUp]
  rw [Config.IsFoundInside, hFrom (Files.destination _ _),
    hFrom w.cwd, List.append_left_inj]

/- A path from the root is found from everywhere. -/
theorem isFoundInside_of_root
    (hRoot : (config.place w).root ≠ .relative) :
    config.IsFoundInside w ws := by
  unfold Config.IsFoundInside Files.destination Files.origin
  rw [if_neg (by simpa using hRoot),
    if_neg (by simpa using hRoot)]

/- A path that leads straight down is found nowhere else. -/
theorem not_isFoundInside_of_down
    (hRoot : (config.place w).root = .relative)
    (hDown : ".." ∉ (config.place w).parts)
    (hCreate :
      (Workspace.create i.start config.workspaceDir).runIn
        w = (.ok ws, made)) :
    ¬ config.IsFoundInside w ws := by
  rcases eq_child_of_create hCreate with
    ⟨name, hChild, _, hUp⟩
  have hFrom :
      ∀ here,
        Files.destination here (config.place w) =
          here ++ (config.place w).parts := by
    intro here
    rw [Files.destination, Files.origin,
      if_pos (by simpa using hRoot),
      Files.resolve_of_not_mem hDown]
  intro hFound
  rw [Config.IsFoundInside, hChild,
    Files.destination_child w.cwd _ hUp, hFrom,
    hFrom] at hFound
  -- Within the workspace the same parts lead further down.
  have hLength := congrArg List.length hFound
  simp only [List.length_append, List.length_cons,
    List.length_nil] at hLength
  omega

------------------------------------------------------------
-- Written And Used Files
------------------------------------------------------------

/-
  The paths that the program uses after a command: those
  that later commands read, and the two of the pair.
-/
def used
    (ws : Path)
    (later : List Tool.Command) : List String :=
  later.flatMap Tool.Command.read ++
    [(ws.child keyName).text, (ws.child certName).text]

/- The two files of the pair are written. -/
theorem pair_subset_written
    (i : Issuer)
    (config : Config)
    (hostname : String)
    (ws : Path) :
    [(ws.child keyName).text, (ws.child certName).text] ⊆
      (i.commands config hostname ws).flatMap
        Tool.Command.written := by
  cases i with
  | trusted => exact List.Subset.refl _
  | manual =>
      have hWritten :
          (Issuer.manual.commands config hostname
              ws).flatMap Tool.Command.written =
            [Manual.keyFile ws, Manual.requestFile ws,
              Manual.certFile ws] := rfl
      rw [hWritten]
      exact List.cons_subset_cons _
        (List.subset_cons_self _ _)

/- Every file that a command writes is used after it. -/
theorem written_subset_used
    {k : Nat}
    (hk : k < (i.commands config hostname ws).length) :
    (i.commands config hostname ws)[k].written ⊆
      used ws
        ((i.commands config hostname ws).drop (k + 1)) := by
  cases i with
  | trusted =>
      match k, hk with
      | 0, _ => exact List.Subset.refl _
  | manual =>
      match k, hk with
      | 0, _ =>
          -- The key is read by the command after it.
          have hUsed :
              Manual.keyFile ws ∈
                used ws
                  [Manual.requestCommand config hostname ws,
                    Manual.signCommand config hostname
                      ws] :=
            List.mem_cons_self
          exact List.cons_subset.mpr
            ⟨hUsed, List.nil_subset _⟩
      | 1, _ =>
          have hUsed :
              Manual.requestFile ws ∈
                used ws
                  [Manual.signCommand config hostname
                    ws] :=
            List.mem_cons_self
          exact List.cons_subset.mpr
            ⟨hUsed, List.nil_subset _⟩
      | 2, _ =>
          exact List.subset_cons_self
            (ws.child keyName).text
            [(ws.child certName).text]

/- Processes of three steps start where the program is. -/
theorem findsFiles_of_manual
    {c : Tool.Command}
    (hc : c ∈ Issuer.manual.commands config hostname ws)
    (here : Files.Location) :
    c.FindsFiles here := by
  apply Tool.Command.findsFiles_of_cwd_eq_none
  simp only [commands, List.mem_cons, List.not_mem_nil,
    or_false] at hc
  rcases hc with rfl | rfl | rfl <;> rfl

/- The trusted tool starts in the workspace. -/
theorem findsFiles_trusted_iff
    (hNormal : ws.IsNormal)
    (here : Files.Location) :
    (Trusted.command config ws hostname).FindsFiles here ↔
      Files.destination (Files.destination here ws) ws =
        Files.destination here ws := by
  have hWritten :
      (Trusted.command config ws hostname).written =
        [(ws.child keyName).text,
          (ws.child certName).text] := rfl
  have hStart :
      (Trusted.command config ws hostname).startsAt here =
        Files.destination here ws :=
    congrArg (Files.destination here)
      (Path.ofText_text hNormal)
  have hKey :
      ∀ start,
        Files.destination start
            (Path.ofText (ws.child keyName).text) =
          Files.destination start ws ++ [keyName] := by
    intro start
    exact Files.destination_child_text start hNormal
      (by decide) (by decide)
  have hCert :
      ∀ start,
        Files.destination start
            (Path.ofText (ws.child certName).text) =
          Files.destination start ws ++ [certName] := by
    intro start
    exact Files.destination_child_text start hNormal
      (by decide) (by decide)
  rw [Tool.Command.FindsFiles, hWritten, hStart]
  simp only [List.forall_mem_cons, List.not_mem_nil,
    false_implies, implies_true, and_true, hKey, hCert,
    List.append_left_inj, and_self]

------------------------------------------------------------
-- Started Processes
------------------------------------------------------------

/-
  Once there is a workspace, some first commands of the
  issuer are started, and the pair is read from it.
-/
theorem exists_started
    (hostname : String)
    (hCreate :
      (Workspace.create i.start config.workspaceDir).runIn
        w = (.ok ws, made)) :
    ∃ started,
      started <+: i.commands config hostname ws ∧
        started ≠ [] ∧
        ((i.issue config hostname).runIn w).2.calls =
          w.calls ++ started.map Tool.Command.call := by
  have hSome : i.commands config hostname ws ≠ [] := by
    cases i <;> exact List.cons_ne_nil _ _
  rcases Tool.exists_started_runAll argv_commands made with
    ⟨started, hPrefix, hNone, hCalls⟩
  refine
    ⟨started, hPrefix, fun hEmpty => hSome (hNone hEmpty),
      ?_⟩
  rw [(issue_of_create hostname hCreate).2, attempt]
  rw [(same_after_create hCreate).2.2] at hCalls
  rcases hRun :
      (Tool.runAll (i.commands config hostname ws)).runIn
        made with
    ⟨result, after⟩
  rw [hRun] at hCalls
  cases result with
  | ok done =>
      rw [Act.runIn_bind_ok hRun,
        Workspace.readMaterial_world]
      exact hCalls
  | error f =>
      rw [Act.runIn_bind_error hRun]
      exact hCalls

/- Of what is started, only the trusted tool may miss them. -/
theorem findFiles_started_iff
    {started : List Tool.Command}
    (hCreate :
      (Workspace.create i.start config.workspaceDir).runIn
        w = (.ok ws, made))
    (hPrefix : started <+: i.commands config hostname ws)
    (hSome : started ≠ []) :
    (∀ c ∈ started, c.FindsFiles w.cwd) ↔
      i = .manual ∨ config.IsFoundInside w ws := by
  cases i with
  | trusted =>
      rcases List.prefix_cons_iff.mp hPrefix with
        hNone | ⟨rest, rfl, hRest⟩
      · exact absurd hNone hSome
      · rw [List.prefix_nil.mp hRest,
          isFoundInside_iff hCreate]
        simp only [List.mem_singleton, forall_eq,
          reduceCtorEq, false_or]
        exact findsFiles_trusted_iff
          (isNormal_of_create hCreate) w.cwd
  | manual =>
      constructor
      · intro _
        exact .inl rfl
      · intro _ c hc
        exact findsFiles_of_manual (hPrefix.subset hc) w.cwd

/-
  What holds of the files of an issuer in a workspace.  Its
  commands write the pair that is read in the end, and all
  that they write is used afterwards under the same name.
  The processes that it starts find what they are told to
  write where the program means it, but for those of the
  trusted tool if the directory for workspaces is not found
  from the workspace.  It is found if it starts at the root,
  and is not if it is relative and leads straight down.
-/
structure IsPlaced
    (i : Issuer)
    (config : Config)
    (hostname : String)
    (w made : World)
    (ws : Path) : Prop where
  issued :
    ((i.issue config hostname).runIn w).1 =
      ((i.attempt config hostname ws).runIn made).1
  written :
    [(ws.child keyName).text, (ws.child certName).text] ⊆
      (i.commands config hostname ws).flatMap
        Tool.Command.written
  used :
    ∀ k (hk : k < (i.commands config hostname ws).length),
      (i.commands config hostname ws)[k].written ⊆
        used ws
          ((i.commands config hostname ws).drop (k + 1))
  found :
    ∃ started,
      ((i.issue config hostname).runIn w).2.calls =
          w.calls ++ started.map Tool.Command.call ∧
        started <+: i.commands config hostname ws ∧
        ((∀ c ∈ started, c.FindsFiles w.cwd) ↔
          i = .manual ∨ config.IsFoundInside w ws)
  ofRoot :
    (config.place w).root ≠ .relative →
    config.IsFoundInside w ws
  ofDown :
    (config.place w).root = .relative →
    ".." ∉ (config.place w).parts →
    ¬ config.IsFoundInside w ws

theorem issuer_isPlaced
    (i : Issuer)
    (config : Config)
    (hostname : String)
    {w made : World}
    {ws : Path}
    (hCreate :
      (Workspace.create i.start config.workspaceDir).runIn
        w = (.ok ws, made)) :
    i.IsPlaced config hostname w made ws := by
  refine
    ⟨(issue_of_create hostname hCreate).1,
      pair_subset_written i config hostname ws,
      fun k hk => written_subset_used hk, ?_,
      isFoundInside_of_root, ?_⟩
  · rcases exists_started hostname hCreate with
      ⟨started, hPrefix, hSome, hCalls⟩
    exact
      ⟨started, hCalls, hPrefix,
        findFiles_started_iff hCreate hPrefix hSome⟩
  · intro hRoot hDown
    exact not_isFoundInside_of_down hRoot hDown hCreate

end

------------------------------------------------------------
-- A Relative Directory
------------------------------------------------------------

/- Workspaces are made in a relative directory. -/
def relativeConfig : Config where
  workspaceDir := some (Path.ofText "rel")

/- A world in which there is that directory. -/
def relativeWorld : World where
  files := ⟨[(["rel"], .directory 0o755)]⟩
  cwd := []
  tempDir := "/tmp"

/- The workspace that is made there. -/
def relativeWorkspace : Path :=
  Path.ofText "rel/dev-certs-trusted-ws000001"

theorem create_relativeWorld :
    (Workspace.create Issuer.trusted.start
        relativeConfig.workspaceDir).runIn relativeWorld =
      (.ok relativeWorkspace,
        ((Workspace.create Issuer.trusted.start
          relativeConfig.workspaceDir).runIn
            relativeWorld).2) := by
  refine Prod.ext ?_ rfl
  decide +kernel

/- The trusted tool is started there and misses its files. -/
theorem issuer_isPlaced_relative :
    (∃ made,
      Issuer.trusted.IsPlaced relativeConfig "localhost"
        relativeWorld made relativeWorkspace) ∧
      ¬ relativeConfig.IsFoundInside relativeWorld
        relativeWorkspace := by
  have hPlaced :=
    issuer_isPlaced .trusted relativeConfig "localhost"
      create_relativeWorld
  refine ⟨⟨_, hPlaced⟩, ?_⟩
  exact hPlaced.ofDown (by decide) (by decide)

/-
  So a started process need not find the files that it is
  told to write where the program means them.
-/
theorem not_always_found :
    ¬ ∀ (i : Issuer) config hostname w ws made started,
      (Workspace.create i.start config.workspaceDir).runIn
        w = (.ok ws, made) →
      started <+: i.commands config hostname ws →
      ((i.issue config hostname).runIn w).2.calls =
        w.calls ++ started.map Tool.Command.call →
      ∀ c ∈ started, c.FindsFiles w.cwd := by
  intro hAlways
  have hFinds :=
    hAlways .trusted relativeConfig "localhost"
      relativeWorld relativeWorkspace _
      [Trusted.command relativeConfig relativeWorkspace
        "localhost"]
      create_relativeWorld List.prefix_rfl
      (by decide +kernel) _ List.mem_cons_self
  have hFound :=
    (isFoundInside_iff create_relativeWorld).mpr
      ((findsFiles_trusted_iff
        (isNormal_of_create create_relativeWorld) _).mp
          hFinds)
  exact not_isFoundInside_of_down (by decide) (by decide)
    create_relativeWorld hFound

end Issuer

end LocalCert
