import LocalCert.Workspace

/-
  A stack of open workspaces, and the steps that a user of
  workspaces can do with the innermost one.

  Key definitions include:
    * `Workspace.Stack`
    * `Workspace.Step`
    * `Workspace.Value`
    * `Workspace.Stack.step`
-/

------------------------------------------------------------
-- Steps
------------------------------------------------------------

namespace LocalCert

namespace Workspace

/- One step with workspaces. -/
inductive Step where
  | enter (start : String) (parent : Option Path)
  | leave (outcome : Option Failure)
  | write (contents : List (String × Files.Content))
  | remove
  | setRemovalFault (words : Option String)
  | read (key cert : String)

/- What a step gives. -/
inductive Value where
  | entered (path : Path) (mode : Nat)
  | left
  | passedOn
  | nothing
  | pair (m : Material)
  | noWorkspace
  deriving DecidableEq, Repr

/- The open workspaces, the innermost first. -/
structure Stack where
  paths : List Path
  world : World

namespace Stack

/- The result of a step. -/
abbrev Result : Type :=
  Except Failure Value

/- The text of a path as seen from a workspace. -/
def inside
    (workspace : Path)
    (text : String) : String :=
  Path.joinText workspace.text text

/- The mode of what stands at a path. -/
def modeAt
    (w : World)
    (path : Path) : Nat :=
  match w.files.locate w.cwd path.text with
  | .ok l => ((w.files.at? l).map Files.Node.mode).getD 0
  | .error _ => 0

/- Open a workspace and make it the innermost. -/
def enter
    (s : Stack)
    (start : String)
    (parent : Option Path) : Result × Stack :=
  match (Workspace.create start parent).runIn s.world with
  | (.ok path, w) =>
      (.ok (.entered path (modeAt w path)),
        ⟨path :: s.paths, w⟩)
  | (.error f, w) => (.error f, { s with world := w })

/-
  Leave a workspace as its body ends, with or without a
  failure.
-/
def leaving
    (path : Path)
    (outcome : Option Failure) : Act Unit :=
  let body : Act Unit :=
    match outcome with
    | none => pure ()
    | some f => Act.fail f
  Act.ensuring body (close path)

/- Leave the innermost workspace. -/
def leave
    (path : Path)
    (rest : List Path)
    (outcome : Option Failure)
    (w : World) : Result × Stack :=
  match (leaving path outcome).runIn w with
  | (.ok (), w) => (.ok .left, ⟨rest, w⟩)
  | (.error _, w) => (.ok .passedOn, ⟨rest, w⟩)

/- Place contents as seen from the innermost workspace. -/
def write
    (path : Path)
    (contents : List (String × Files.Content))
    (w : World) : World :=
  { w with
    files := w.files.placeAll w.cwd
      (contents.map (fun c => (inside path c.1, c.2))) }

/- Remove a workspace without leaving it. -/
def remove
    (path : Path)
    (w : World) : World :=
  { w with files := (w.files.removeAll w.cwd path.text).2 }

/- Read a pair as seen from the innermost workspace. -/
def read
    (path : Path)
    (key cert : String)
    (w : World) : Result × World :=
  let full := fun (text : String) =>
    (Path.ofText (inside path text)).text
  match (readMaterial (full key) (full cert)).runIn w with
  | (.ok m, w) => (.ok (.pair m), w)
  | (.error f, w) => (.error f, w)

/- Do one step. -/
def step
    (s : Stack)
    (step : Step) : Result × Stack :=
  match step, s.paths with
  | .enter start parent, _ => s.enter start parent
  | .setRemovalFault words, _ =>
      (.ok .nothing,
        { s with world := s.world.setRemovalFault words })
  | _, [] => (.ok .noWorkspace, s)
  | .leave outcome, path :: rest =>
      leave path rest outcome s.world
  | .write contents, path :: _ =>
      (.ok .nothing,
        { s with world := write path contents s.world })
  | .remove, path :: _ =>
      (.ok .nothing, { s with world := remove path s.world })
  | .read key cert, path :: _ =>
      let (result, w) := read path key cert s.world
      (result, { s with world := w })

/- Do steps one after another. -/
def run
    (s : Stack) : List Step → List (Result × Stack)
  | [] => []
  | step :: steps =>
      let (result, next) := s.step step
      (result, next) :: run next steps

end Stack

end Workspace

end LocalCert
