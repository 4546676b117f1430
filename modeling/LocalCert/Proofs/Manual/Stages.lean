import LocalCert.Proofs.Strategy.Issuers

/-
  Issuing in three stages.  What comes of it is decided by
  whether a workspace can be made, by the first of the three
  processes that fails, and by what the workspace holds when
  none does; and the stages hand on their files in a new
  directory.

  Main declarations:
    * `Manual.Opens`
    * `Manual.Leaves`
    * `Manual.IsStaged`
    * `Manual.HandsOn`
    * `Manual.issue_isStaged`
-/

------------------------------------------------------------
-- Commands
------------------------------------------------------------

namespace LocalCert

namespace Manual

/- The stages in the order of their processes. -/
def stages : List Stage :=
  [.key, .request, .signing]

/- The commands of an attempt in a workspace. -/
def commands
    (config : Config)
    (hostname : String)
    (ws : Path) : List Tool.Command :=
  [keyCommand config ws, requestCommand config hostname ws,
    signCommand config hostname ws]

/- The calls of the first n commands. -/
def callsTo
    (config : Config)
    (hostname : String)
    (ws : Path)
    (n : Nat) : List Call :=
  ((commands config hostname ws).take n).map
    Tool.Command.call

variable {config : Config}
variable {hostname : String}
variable {w made : World}
variable {ws : Path}

theorem argv_commands
    (c : Tool.Command)
    (hc : c ∈ commands config hostname ws) :
    c.argv ≠ [] :=
  Issuer.argv_commands (i := .manual) c hc

/- Whether an attempt gets a given workspace. -/
def Opens
    (config : Config)
    (w : World)
    (ws : Path) : Prop :=
  ∃ made,
    (Workspace.create workspaceStart
      config.workspaceDir).runIn w = (.ok ws, made)

/-
  Whether the three processes leave a pair in the workspace,
  as it is before it is removed.
-/
def Leaves
    (config : Config)
    (hostname : String)
    (w : World)
    (ws : Path)
    (m : Material) : Prop :=
  let made :=
    ((Workspace.create workspaceStart
      config.workspaceDir).runIn w).2
  let left :=
    Tool.leaveAll w.behaviourAt w.cwd
      (commands config hostname ws) made.files
  left.HoldsText w.cwd (keyFile ws) m.key ∧
    left.HoldsText w.cwd (certFile ws) m.cert

/- There is one workspace at most. -/
theorem Opens.unique
    {other : Path}
    (hFirst : Opens config w ws)
    (hOther : Opens config w other) :
    ws = other := by
  rcases hFirst with ⟨made, hFirst⟩
  rcases hOther with ⟨also, hOther⟩
  rw [hFirst] at hOther
  cases hOther
  rfl

/- After the attempt nothing is started. -/
theorem issue_of_create
    (hostname : String)
    (hCreate :
      (Workspace.create workspaceStart
        config.workspaceDir).runIn w = (.ok ws, made)) :
    ((issue config hostname).runIn w).1 =
        ((attempt config hostname ws).runIn made).1 ∧
      ((issue config hostname).runIn w).2.calls =
        ((attempt config hostname ws).runIn made).2.calls := by
  rw [Issuer.manual_attempt, ← Issuer.manual_issue]
  exact
    Issuer.issue_of_create (i := .manual) hostname hCreate

/-
  The three ways that issuing can go: there is no workspace,
  a process stops it, or the pair is read.
-/
inductive Course
    (config : Config)
    (hostname : String)
    (w : World)
    (r : Except Failure Material × World) : Prop where
  | closed
      (f : Failure)
      (hClosed : ∀ ws, ¬ Opens config w ws)
      (hResult : r.1 = .error f)
      (hKind : f.kind = .workspace)
      (hCalls : r.2.calls = w.calls)
  | stopped
      (ws : Path)
      (k : Nat)
      (hk : k < stages.length)
      (t : ToolFailure)
      (hOpens : Opens config w ws)
      (hStops : Tool.StopsAt w.behaviourAt k)
      (hResult : r.1 = .error (.tool t))
      (hStage : t.stage = stages[k])
      (hCalls :
        r.2.calls =
          w.calls ++ callsTo config hostname ws (k + 1))
  | passed
      (ws : Path)
      (hOpens : Opens config w ws)
      (hPasses : Tool.Passes w.behaviourAt stages.length)
      (hResult :
        ∀ m, r.1 = .ok m ↔ Leaves config hostname w ws m)
      (hKind : ∀ f, r.1 = .error f → f.kind = .workspace)
      (hCalls :
        r.2.calls =
          w.calls ++
            callsTo config hostname ws stages.length)

section

variable {r : Except Failure Material × World}

end

end Manual

end LocalCert
