import LocalCert.Provisioner

/-
  Sessions: steps one after another in one world, with one
  provisioner that is kept, or a new one for each request.

  Key definitions include:
    * `Session.Step`
    * `Session.Keeper`
    * `Session.step`
    * `Session.run`
-/

------------------------------------------------------------
-- Steps
------------------------------------------------------------

namespace LocalCert

namespace Session

/- One step of a session. -/
inductive Step where
  | provision (hostname : Option String)
  | trusted (hostname : String)
  | manual (hostname : String)
  | assign (settings : List Config.Setting)
  | setLevel (level : Json)
  | addBehaviours (behaviours : List Behaviour)
  | setRemovalFault (words : Option String)

/- Where the provisioner of a request comes from. -/
inductive Keeper where
  | kept (p : Provisioner)
  | fresh

/- Why a step gives no value. -/
inductive Error where
  | failure (f : Failure)
  | level (e : Level.Error)

/- The result of an action that issues material. -/
def issued
    (act : Act Material)
    (w : World) :
    Except Error (Option Material) × World :=
  match act.runIn w with
  | (.ok m, w) => (.ok (some m), w)
  | (.error f, w) => (.error (.failure f), w)

/- Set the level of the logger. -/
def setLevel
    (level : Json)
    (w : World) : Except Error World :=
  match w.logger.setLevel level with
  | .ok logger => .ok { w with logger := logger }
  | .error e => .error (.level e)

/- The action of a request. -/
def request
    (keeper : Keeper)
    (hostname : String)
    (w : World) : Act Material :=
  match keeper with
  | .kept p => p.provision hostname
  | .fresh => LocalCert.provision hostname w.config

/- Do one step. -/
def step
    (keeper : Keeper)
    (s : Step)
    (w : World) :
    Except Error (Option Material) × World :=
  match s with
  | .provision hostname =>
      issued
        (request keeper
          (hostname.getD Provisioner.defaultHostname) w) w
  | .trusted hostname =>
      issued ((Strategy.trusted World.config).issue hostname) w
  | .manual hostname =>
      issued ((Strategy.manual World.config).issue hostname) w
  | .assign settings =>
      (.ok none,
        { w with config := w.config.assignAll settings })
  | .setLevel level =>
      match setLevel level w with
      | .ok w => (.ok none, w)
      | .error e => (.error e, w)
  | .addBehaviours behaviours =>
      (.ok none, { w with script := w.script ++ behaviours })
  | .setRemovalFault words =>
      (.ok none, w.setRemovalFault words)

/-
  Do steps one after another; each result stands with the
  world after it.
-/
def run
    (keeper : Keeper) :
    List Step → World →
      List (Except Error (Option Material) × World)
  | [], _ => []
  | s :: ss, w =>
      let (result, w) := step keeper s w
      (result, w) :: run keeper ss w

end Session

end LocalCert
