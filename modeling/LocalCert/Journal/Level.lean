import LocalCert.Json.Shown

/-
  Severity levels: numbers, some of which have names.

  Key definitions include:
    * `Level.debug`
    * `Level.name`
    * `Level.ofName?`
    * `Level.ofJson`
-/

------------------------------------------------------------
-- Levels
------------------------------------------------------------

namespace LocalCert

namespace Level

/- The level of a logger that takes it from elsewhere. -/
def notSet : Int := 0

/- Details for finding faults. -/
def debug : Int := 10

/- What happens as expected. -/
def info : Int := 20

/- What the program can go on after. -/
def warning : Int := 30

/- What the program cannot go on after. -/
def error : Int := 40

/- The highest level with a name. -/
def critical : Int := 50

/- The names and their levels. -/
def names : List (String × Int) :=
  [("CRITICAL", critical), ("FATAL", critical),
    ("ERROR", error), ("WARNING", warning),
    ("WARN", warning), ("INFO", info), ("DEBUG", debug),
    ("NOTSET", notSet)]

/- The first name of a level, or its number. -/
def name
    (level : Int) : String :=
  match names.find? (fun n => n.2 == level) with
  | some n => n.1
  | none => "Level " ++ Text.intText level

/- The level of a name. -/
def ofName?
    (name : String) : Option Int :=
  (names.find? (fun n => n.1 == name)).map Prod.snd

/- Why a value is no level. -/
inductive Error where
  | unknownName (name : List Text.Symbol)
  | notLevel (value : Json)

/- The message for such a value. -/
def Error.message : Error → String
  | .unknownName name =>
      "Unknown level: " ++
        String.ofList (Text.Quoted.encodeSymbols name)
  | .notLevel value =>
      "Level not an integer or a valid string: " ++
        String.ofList value.shown

/- The level that a number or a name means. -/
def ofJson : Json → Except Error Int
  | .whole i => .ok i
  | .bool b => .ok (if b then 1 else 0)
  | .text s =>
      match ofName? s with
      | some level => .ok level
      | none => .error (.unknownName (Text.symbols s.toList))
  | .ragged ss => .error (.unknownName ss)
  | value => .error (.notLevel value)

end Level

end LocalCert
