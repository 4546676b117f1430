import LocalCert.Journal.Logger

/-
  Steps with a logger: setting its level, reporting through
  it, and setting it up again or from the start.

  Key definitions include:
    * `Logger.Step`
    * `Logger.Refusal`
    * `Logger.step`
    * `Logger.run`
-/

------------------------------------------------------------
-- Steps
------------------------------------------------------------

namespace LocalCert

namespace Logger

/- One step with a logger. -/
inductive Step where
  | setLevel (value : Json)
  | emit (level : Int) (message : Json)
      (arguments : List Json) (extras : Json.Members)
  | setUp (times : Nat)
  | setUpStripped

/- Why a step is refused. -/
inductive Refusal where
  | level (e : Level.Error)
  | overwrite (name : String)

/- The message for a refused step. -/
def Refusal.message : Refusal → String
  | .level e => e.message
  | .overwrite name => overwriteMessage name

/- The lines that a step writes, by their fields. -/
abbrev Lines : Type :=
  List Json.Members

/-
  The lines of a record: one from each handler that writes
  the program's lines, and none if it cannot be written.
-/
def linesOf
    (l : Logger)
    (r : Option Record) : Lines :=
  match r with
  | none => []
  | some r =>
      (l.handlers.filter Handler.writesLines).flatMap
        (fun _ => r.fields.toOption.toList)

/- Set a logger up so many times. -/
def setUpTimes
    (l : Logger) : Nat → Logger
  | 0 => l
  | n + 1 => setUpTimes l.setUp n

/- Do one step; a refused one leaves the logger alone. -/
def step
    (l : Logger) : Step → Except Refusal Lines × Logger
  | .setLevel value =>
      match l.setLevel value with
      | .ok l => (.ok [], l)
      | .error e => (.error (.level e), l)
  | .emit level message arguments extras =>
      match l.record level message arguments extras with
      | .ok r => (.ok (l.linesOf r), l)
      | .error name => (.error (.overwrite name), l)
  | .setUp times => (.ok [], l.setUpTimes times)
  | .setUpStripped => (.ok [], stripped.setUp)

/- Do steps one after another. -/
def run
    (l : Logger) :
    List Step → List (Except Refusal Lines × Logger)
  | [] => []
  | s :: ss =>
      let (result, next) := l.step s
      (result, next) :: run next ss

end Logger

end LocalCert
