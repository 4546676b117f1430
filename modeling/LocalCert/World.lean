import LocalCert.Config
import LocalCert.Files.Content
import LocalCert.Journal.Event
import LocalCert.Material

/-
  The world in which certificates are provisioned: the file
  tree, the behaviour of the tools, the logger, and what has
  been reported and started so far.

  Key definitions include:
    * `Behaviour`
    * `Call`
    * `World`
    * `World.furnish`
    * `Act`
    * `Act.report`
-/

------------------------------------------------------------
-- Tools
------------------------------------------------------------

namespace LocalCert

/-
  How a started process ends.  A failure that comes out of
  the call, such as an interrupt, may come before the process
  has run or while it is running.
-/
inductive Ending where
  | exit (code : Int) (stdout stderr : String)
  | missing
  | timedOut
  | fault (f : Files.Fault)
  | raised (f : Failure) (running : Bool := false)
  deriving DecidableEq, Repr

/-
  The behaviour of one process: how it ends, what it writes
  beside its first output, and whether it then removes the
  directory that it wrote to.
-/
structure Behaviour where
  ending : Ending := .exit 0 "" ""
  files : List (String × Files.Content) := []
  removesDirectory : Bool := false
  deriving DecidableEq, Repr

/- Something that was asked of the world outside. -/
inductive Call where
  | process (argv : List String) (input : Option String)
      (timeout : Seconds) (cwd : Option String)
  | strategy (position : Nat) (name hostname : String)
  deriving DecidableEq, Repr

------------------------------------------------------------
-- Worlds
------------------------------------------------------------

/-
  Everything outside the program that its work depends on,
  and a record of what has happened in it.  The n-th removal
  of a workspace may be set to meet a fault with the given
  words; the faults that removals met are kept.
-/
structure World where
  files : Files.Tree
  cwd : Files.Location
  tempDir : String
  script : List Behaviour := []
  namesTried : Nat := 0
  removalFaults : Nat → Option String := fun _ => none
  removalsTried : Nat := 0
  faultsMet : List Files.Fault := []
  config : Config := {}
  logger : Logger := .initial
  journal : List Event := []
  calls : List Call := []

namespace World

/-
  Place contents in the files before the program starts.  A
  directory that its owner cannot write to is never cleared
  away for a fresh start, so that the directory for
  temporary files is found to be there already.
-/
def furnish
    (w : World)
    (contents : List (String × Files.Content)) :
    Except Failure World :=
  if contents.any (fun c => c.2.isLocked) then
    .error (.fault (.ofRefusal .alreadyExists w.tempDir))
  else
    .ok { w with files := w.files.placeAll w.cwd contents }

/- Report an event, if its level is enabled. -/
def report
    (w : World)
    (e : Event) : World :=
  if w.logger.isEnabled e.level then
    { w with journal := w.journal ++ [e] }
  else
    w

/- Note a call. -/
def note
    (w : World)
    (c : Call) : World :=
  { w with calls := w.calls ++ [c] }

/- The behaviour of the next process, and the world after. -/
def nextBehaviour
    (w : World) : Behaviour × World :=
  match w.script with
  | [] => ({}, w)
  | b :: bs => (b, { w with script := bs })

/- Set what all further removals meet. -/
def setRemovalFault
    (words : Option String)
    (w : World) : World :=
  { w with removalFaults := fun _ => words }

/- The words of the fault of the next removal, if any. -/
def nextRemovalFault
    (w : World) : Option String :=
  w.removalFaults w.removalsTried

end World

------------------------------------------------------------
-- Actions
------------------------------------------------------------

/- An action in the world: a value or a failure. -/
abbrev Act : Type → Type :=
  ExceptT Failure (StateM World)

namespace Act

/- Run an action in a world. -/
def runIn
    {α : Type}
    (act : Act α)
    (w : World) : Except Failure α × World :=
  (ExceptT.run act).run w

/- An action by what it does to the world. -/
def of
    {α : Type}
    (f : World → Except Failure α × World) : Act α :=
  ExceptT.mk f

/- Stop with a failure. -/
def fail
    {α : Type}
    (f : Failure) : Act α :=
  of (fun w => (.error f, w))

/- Look at the world. -/
def look
    {α : Type}
    (f : World → α) : Act α :=
  of (fun w => (.ok (f w), w))

/- Change the world. -/
def change
    (f : World → World) : Act Unit :=
  of (fun w => (.ok (), f w))

/- Report an event. -/
def report
    (e : Event) : Act Unit :=
  change (fun w => w.report e)

/- Do one action, and clean up after it in any case. -/
def ensuring
    {α : Type}
    (act : Act α)
    (cleanUp : World → World) : Act α :=
  of (fun w =>
    let (result, w) := act.runIn w
    (result, cleanUp w))

/- Do another action after a failure. -/
def orElseWith
    {α : Type}
    (act : Act α)
    (handler : Failure → Act α) : Act α :=
  of (fun w =>
    match act.runIn w with
    | (.ok a, w) => (.ok a, w)
    | (.error f, w) => (handler f).runIn w)

end Act

end LocalCert
