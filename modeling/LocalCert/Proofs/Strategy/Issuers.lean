import LocalCert.Proofs.Tool.Sequence
import LocalCert.Proofs.Workspace.Lifetime
import LocalCert.Proofs.Workspace.Reading
import LocalCert.Strategy.Manual
import LocalCert.Strategy.Trusted

/-
  The two issuers, which both run commands in a workspace of
  their own and then read a pair from it.  Material is
  issued exactly if a workspace can be made, all processes
  succeed, and the two files can be read; and it is what the
  files hold, but for the line ends.

  Main declarations:
    * `Issuer`
    * `Issuer.issue_eq`
    * `Issuer.Supplies`
    * `Issuer.issue_eq_ok_iff`
-/

------------------------------------------------------------
-- Issuers
------------------------------------------------------------

namespace LocalCert

/- The ways of issuing that the program knows. -/
inductive Issuer where
  | trusted
  | manual
  deriving DecidableEq, Repr

namespace Issuer

/- The name of the file of the key. -/
def keyName : String := "key.pem"

/- The name of the file of the certificate. -/
def certName : String := "cert.pem"

/- The start of the names of the workspaces. -/
def start : Issuer → String
  | trusted => Trusted.workspaceStart
  | manual => Manual.workspaceStart

/- The commands of an attempt in a workspace. -/
def commands
    (config : Config)
    (hostname : String)
    (ws : Path) : Issuer → List Tool.Command
  | trusted => [Trusted.command config ws hostname]
  | manual =>
      [Manual.keyCommand config ws,
        Manual.requestCommand config hostname ws,
        Manual.signCommand config hostname ws]

/- How an issued pair is told of. -/
def told
    (config : Config)
    (hostname : String) : Issuer → Event
  | trusted => .issued config.trustedTool hostname
  | manual => .selfSigned config.cryptoTool hostname

/- Issue material for a hostname. -/
def issue
    (config : Config)
    (hostname : String) : Issuer → Act Material
  | trusted => Trusted.issue config hostname
  | manual => Manual.issue config hostname

theorem manual_issue
    (config : Config)
    (hostname : String) :
    manual.issue config hostname =
      Manual.issue config hostname :=
  rfl

/- Run the commands and read what they wrote. -/
def attempt
    (i : Issuer)
    (config : Config)
    (hostname : String)
    (ws : Path) : Act Material := do
  Tool.runAll (i.commands config hostname ws)
  Workspace.readMaterial
    (ws.child keyName).text (ws.child certName).text

theorem trusted_attempt
    (config : Config)
    (hostname : String)
    (ws : Path) :
    Trusted.attempt config hostname ws =
      trusted.attempt config hostname ws := by
  simp only [attempt, commands, Tool.runAll, bind_assoc,
    pure_bind]
  rfl

theorem manual_attempt
    (config : Config)
    (hostname : String)
    (ws : Path) :
    Manual.attempt config hostname ws =
      manual.attempt config hostname ws := by
  simp only [attempt, commands, Tool.runAll, bind_assoc,
    pure_bind]
  rfl

/- An attempt in a workspace, of which is told. -/
theorem issue_eq
    (i : Issuer)
    (config : Config)
    (hostname : String) :
    i.issue config hostname = (do
      let m ←
        Workspace.within i.start config.workspaceDir
          (i.attempt config hostname)
      Act.report (i.told config hostname)
      return m) := by
  cases i with
  | trusted =>
      rw [← funext (trusted_attempt config hostname)]
      rfl
  | manual =>
      rw [← funext (manual_attempt config hostname)]
      rfl

section

variable {i : Issuer}
variable {config : Config}
variable {hostname : String}
variable {w made : World}
variable {ws : Path}
variable {m : Material}

theorem argv_commands
    (c : Tool.Command)
    (hc : c ∈ i.commands config hostname ws) :
    c.argv ≠ [] := by
  cases i with
  | trusted =>
      simp only [commands, List.mem_singleton] at hc
      subst hc
      exact List.cons_ne_nil _ _
  | manual =>
      simp only [commands, List.mem_cons, List.not_mem_nil,
        or_false] at hc
      rcases hc with rfl | rfl | rfl
      · exact List.cons_ne_nil _ _
      · exact List.cons_ne_nil _ _
      · exact List.cons_ne_nil _ _

/- After the attempt nothing is started. -/
theorem issue_of_create
    (hostname : String)
    (hCreate :
      (Workspace.create i.start config.workspaceDir).runIn
        w = (.ok ws, made)) :
    ((i.issue config hostname).runIn w).1 =
        ((i.attempt config hostname ws).runIn made).1 ∧
      ((i.issue config hostname).runIn w).2.calls =
        ((i.attempt config hostname ws).runIn
          made).2.calls := by
  have hWithin :
      (Workspace.within i.start config.workspaceDir
          (i.attempt config hostname)).runIn w =
        (((i.attempt config hostname ws).runIn made).1,
          Workspace.close ws
            ((i.attempt config hostname ws).runIn
              made).2) := by
    rw [Workspace.within, Act.runIn_bind_ok hCreate,
      Act.runIn_ensuring]
  have hTold :
      ∀ (m : Material) (v : World),
        (do
          Act.report (i.told config hostname)
          return m : Act Material).runIn v =
            (.ok m, v.report (i.told config hostname)) := by
    intro m v
    rfl
  rw [issue_eq, Act.runIn_bind, hWithin]
  cases ((i.attempt config hostname ws).runIn made).1 with
  | ok m =>
      simp only [hTold, World.report_calls,
        Workspace.close_calls]
      exact ⟨trivial, trivial⟩
  | error f =>
      simp only [Workspace.close_calls]
      exact ⟨trivial, trivial⟩

theorem issue_of_not_create
    {f : Failure}
    (hostname : String)
    (hCreate :
      (Workspace.create i.start config.workspaceDir).runIn
        w = (.error f, made)) :
    (i.issue config hostname).runIn w = (.error f, made) := by
  have hWithin :
      (Workspace.within i.start config.workspaceDir
          (i.attempt config hostname)).runIn w =
        (.error f, made) :=
    Act.runIn_bind_error hCreate
  rw [issue_eq, Act.runIn_bind_error hWithin]

/- A new workspace changes nothing that decides the rest. -/
theorem same_after_create
    (hCreate :
      (Workspace.create i.start config.workspaceDir).runIn
        w = (.ok ws, made)) :
    made.behaviourAt = w.behaviourAt ∧
      made.cwd = w.cwd ∧ made.calls = w.calls := by
  rcases Workspace.create_eq_ok hCreate with
    ⟨n, l, _, _, hMade⟩
  rw [hMade, World.report_behaviourAt, World.report_cwd,
    World.report_calls]
  exact ⟨rfl, rfl, rfl⟩

theorem hasNul_child
    {name : String}
    (hCreate :
      (Workspace.create i.start config.workspaceDir).runIn
        w = (.ok ws, made))
    (hName : Workspace.hasNul name = false) :
    Workspace.hasNul (ws.child name).text = false := by
  rcases Workspace.exists_text_of_create hCreate with
    ⟨text, rfl, hText⟩
  exact Workspace.hasNul_text_child hText hName

------------------------------------------------------------
-- What The Tools Leave
------------------------------------------------------------

/- The files after all commands, if none of them fails. -/
def left
    (i : Issuer)
    (config : Config)
    (hostname : String)
    (w : World)
    (ws : Path) : Files.Tree :=
  Tool.leaveAll w.behaviourAt w.cwd
    (i.commands config hostname ws) w.files

/- An attempt succeeds if its processes leave two texts. -/
theorem attempt_eq_ok_iff
    (hKey :
      Workspace.hasNul (ws.child keyName).text = false)
    (hCert :
      Workspace.hasNul (ws.child certName).text = false) :
    ((i.attempt config hostname ws).runIn w).1 = .ok m ↔
      Tool.Passes w.behaviourAt
          (i.commands config hostname ws).length ∧
        (i.left config hostname w ws).HoldsText w.cwd
            (ws.child keyName).text m.key ∧
          (i.left config hostname w ws).HoldsText w.cwd
            (ws.child certName).text m.cert := by
  by_cases hPasses :
      Tool.Passes w.behaviourAt
        (i.commands config hostname ws).length
  · rcases Tool.runAll_passes argv_commands hPasses with
      ⟨after, hRun, _, hHere, hFiles⟩
    rw [attempt, Act.runIn_bind_ok hRun,
      Workspace.readMaterial_eq_ok_iff hKey hCert, hHere,
      hFiles]
    exact (and_iff_right hPasses).symm
  · constructor
    · intro hIssued
      rcases hRun :
          (i.attempt config hostname ws).runIn w with
        ⟨result, after⟩
      rw [hRun] at hIssued
      subst hIssued
      rcases Act.runIn_bind_eq_ok hRun with
        ⟨_, between, hAll, _⟩
      exact absurd
        (Tool.passes_of_runAll argv_commands hAll) hPasses
    · rintro ⟨hAll, _⟩
      exact absurd hAll hPasses

/-
  Whether a workspace can be made in which the processes all
  succeed and leave files with the given bytes as the key
  and the certificate.
-/
def Supplies
    (i : Issuer)
    (config : Config)
    (hostname : String)
    (w : World)
    (key cert : List UInt8) : Prop :=
  ∃ ws made,
    (Workspace.create i.start config.workspaceDir).runIn w =
        (.ok ws, made) ∧
      Tool.Passes made.behaviourAt
        (i.commands config hostname ws).length ∧
      (i.left config hostname made ws).read made.cwd
          (ws.child keyName).text = .ok key ∧
        (i.left config hostname made ws).read made.cwd
          (ws.child certName).text = .ok cert

/-
  Material is issued exactly if the tools supply a pair of
  well-formed files, and then it is what they hold, but for
  the line ends.
-/
theorem issue_eq_ok_iff :
    ((i.issue config hostname).runIn w).1 = .ok m ↔
      ∃ key cert,
        i.Supplies config hostname w key cert ∧
          (Text.Utf8.WellFormed key ∧
            Text.Utf8.encodeText m.key =
              Text.Utf8.unifyBytes key) ∧
          Text.Utf8.WellFormed cert ∧
          Text.Utf8.encodeText m.cert =
            Text.Utf8.unifyBytes cert := by
  rcases hCreate :
      (Workspace.create i.start config.workspaceDir).runIn
        w with
    ⟨result, made⟩
  cases result with
  | error f =>
      rw [issue_of_not_create hostname hCreate]
      constructor
      · intro hIssued
        cases hIssued
      · rintro ⟨_, _, ⟨_, _, hOther, _⟩, _⟩
        cases hCreate.symm.trans hOther
  | ok ws =>
      rw [(issue_of_create hostname hCreate).1,
        attempt_eq_ok_iff
          (hasNul_child hCreate (by decide))
          (hasNul_child hCreate (by decide)),
        Files.Tree.holdsText_iff, Files.Tree.holdsText_iff]
      constructor
      · rintro ⟨hPasses, ⟨key, hKey, hKeyBytes⟩,
          ⟨cert, hCert, hCertBytes⟩⟩
        exact
          ⟨key, cert,
            ⟨ws, made, hCreate, hPasses, hKey, hCert⟩,
            hKeyBytes, hCertBytes⟩
      · rintro ⟨key, cert,
          ⟨ws', made', hOther, hPasses, hKey, hCert⟩,
          hKeyBytes, hCertBytes⟩
        cases hCreate.symm.trans hOther
        exact
          ⟨hPasses, ⟨key, hKey, hKeyBytes⟩,
            ⟨cert, hCert, hCertBytes⟩⟩

end

end Issuer

end LocalCert
