import LocalCert.Journal.Level
import LocalCert.Journal.Record

/-
  The logger: its level, its handlers, and whether records
  go on to the loggers above it.

  Key definitions include:
    * `Logger`
    * `Logger.isEnabled`
    * `Logger.setUp`
    * `Logger.record`
-/

------------------------------------------------------------
-- Loggers
------------------------------------------------------------

namespace LocalCert

/- A handler, by whether it writes the program's lines. -/
structure Handler where
  writesLines : Bool
  deriving DecidableEq, Repr

/- The state of a logger. -/
structure Logger where
  level : Int
  handlers : List Handler
  propagates : Bool
  deriving DecidableEq, Repr

namespace Logger

/- The name of the program's logger. -/
def name : String := "dev_certs"

/- A logger before its set-up. -/
def stripped : Logger :=
  ⟨Level.notSet, [], true⟩

/- Set a logger up, unless it has handlers already. -/
def setUp
    (l : Logger) : Logger :=
  if l.handlers.isEmpty then
    ⟨Level.info, [⟨true⟩], false⟩
  else
    l

/- The program's logger at its start. -/
def initial : Logger :=
  stripped.setUp

/-
  The level that decides: its own one, or, if that is not
  set, that of the loggers above.
-/
def effectiveLevel
    (l : Logger) : Int :=
  if l.level == Level.notSet then Level.warning else l.level

/- Whether records of a level are written. -/
def isEnabled
    (l : Logger)
    (level : Int) : Bool :=
  1 ≤ level && l.effectiveLevel ≤ level

/- Set the level, or say why the value is none. -/
def setLevel
    (l : Logger)
    (value : Json) : Except Level.Error Logger :=
  (Level.ofJson value).map
    (fun level => { l with level := level })

------------------------------------------------------------
-- Records Of Calls
------------------------------------------------------------

/- The names of the attributes that every record has. -/
def ownNames : List String :=
  ["message", "asctime", "name", "msg", "args",
    "levelname", "levelno", "pathname", "filename",
    "module", "exc_info", "exc_text", "stack_info",
    "lineno", "funcName", "created", "msecs",
    "relativeCreated", "thread", "threadName",
    "processName", "process"]

/- The message for an extra with the name of an attribute. -/
def overwriteMessage
    (name : String) : String :=
  "Attempt to overwrite " ++ Text.quoted name ++
    " in LogRecord"

/-
  The record of a call, if its level is enabled, or the name
  of the extra that would overwrite an attribute.
-/
def record
    (l : Logger)
    (level : Int)
    (message : Json)
    (arguments : List Json)
    (extras : Json.Members) :
    Except String (Option Record) :=
  if !l.isEnabled level then
    .ok none
  else
    match extras.find? (fun m => ownNames.contains m.1) with
    | some m => .error m.1
    | none =>
        .ok (some
          { Record.blank with
            level := .text (Level.name level)
            message :=
              .ofJson message (.ofCall arguments)
            extras := extras })

end Logger

end LocalCert
