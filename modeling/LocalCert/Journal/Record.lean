import LocalCert.Calendar
import LocalCert.Journal.Template
import LocalCert.Json.Writer

/-
  Log records and the lines they are written as.  A line is
  one JSON object: base fields first, then what the message
  and the extras add, and no other field than those allowed.

  Key definitions include:
    * `Record`
    * `Record.Message`
    * `Record.Raised.text`
    * `Record.allowedFields`
    * `Record.fields`
    * `Record.line`
-/

------------------------------------------------------------
-- Records
------------------------------------------------------------

namespace LocalCert

/- The arguments of a message. -/
inductive Record.Arguments where
  | list (items : List Json)
  | mapping (members : Json.Members)

/- A message: a template with arguments, or named values. -/
inductive Record.Message where
  | template (text : Json) (arguments : Record.Arguments)
  | named (members : Json.Members)

/-
  One event to be written: where and when it happened, its
  message, the text of an exception, the exception that was
  raised with it, and the extras that the caller supplied.
-/
structure Record where
  level : Json
  function : Json
  line : Json
  created : Double
  message : Record.Message
  exception : Json := .null
  raised : Json := .null
  extras : Json.Members := []

namespace Record

------------------------------------------------------------
-- Arguments
------------------------------------------------------------

namespace Arguments

/- Whether there are no arguments. -/
def isEmpty : Arguments → Bool
  | .list items => items.isEmpty
  | .mapping members => members.isEmpty

/- The arguments in the order in which they are taken. -/
def supply : Arguments → Template.Supply
  | .list items => .ofArguments items
  | .mapping members => .ofMapping members

/-
  The arguments of a call: one object that is not empty is
  a mapping.
-/
def ofCall : List Json → Arguments
  | [.object members] =>
      if members.isEmpty then
        .list [.object members]
      else
        .mapping members
  | items => .list items

end Arguments

/- A message: an object holds named values. -/
def Message.ofJson
    (value : Json)
    (arguments : Arguments) : Message :=
  match value with
  | .object members => .named members
  | value => .template value arguments

/-
  The text of a message: the template itself if there are no
  arguments, and nothing for named values.
-/
def Message.text :
    Message → Except Template.Error (List Text.Symbol)
  | .named _ => .ok []
  | .template value arguments =>
      if arguments.isEmpty then
        .ok value.plainText
      else
        Template.format value.plainText arguments.supply

/- The named values of a message. -/
def Message.members : Message → Json.Members
  | .named members => members
  | .template _ _ => []

------------------------------------------------------------
-- Exceptions
------------------------------------------------------------

/- Why a value is no exception that could be shown. -/
inductive Raised.Error where
  | noParts (given : String)
  | shortText
  | shortList
  | keyed
  | noTrace (given : String)
  | noException (given : String)
  deriving DecidableEq, Repr

/- The message for such a value. -/
def Raised.Error.message : Raised.Error → String
  | .noParts given =>
      "'" ++ given ++ "' object is not subscriptable"
  | .shortText => "string index out of range"
  | .shortList => "list index out of range"
  | .keyed => "2"
  | .noTrace given =>
      "'" ++ given ++ "' object has no attribute 'tb_frame'"
  | .noException given =>
      "'" ++ given ++
        "' object has no attribute '__suppress_context__'"

/-
  The text of an exception with a trace.  A value read from
  JSON is neither, so only an exception that is missing in
  both has a text.
-/
def Raised.traced
    (exception trace : Json) : Except Raised.Error String :=
  match trace, exception with
  | .null, .null => .ok "NoneType: None"
  | .null, e => .error (.noException e.typeName)
  | t, _ => .error (.noTrace t.typeName)

/-
  The text of a value given as what was raised: the type of
  an exception, the exception, and its trace.
-/
def Raised.text : Json → Except Raised.Error String
  | .list (_ :: exception :: trace :: _) =>
      Raised.traced exception trace
  | .list _ => .error .shortList
  | .object _ => .error .keyed
  | .text s =>
      if s.length < 3 then
        .error .shortText
      else
        .error (.noTrace "str")
  | .ragged ss =>
      if ss.length < 3 then
        .error .shortText
      else
        .error (.noTrace "str")
  | value => .error (.noParts value.typeName)

------------------------------------------------------------
-- Fields
------------------------------------------------------------

/- The fields that a caller may add to a line. -/
def contextFields : List String :=
  ["strategy", "hostname", "tool"]

/- All fields that a line may have. -/
def allowedFields : List String :=
  ["timestamp", "level", "message", "exc_info",
    "funcName", "lineno"] ++ contextFields

/- The names that extras cannot use. -/
def reservedNames : List String :=
  ["timestamp", "levelname", "funcName", "lineno",
    "message", "args", "asctime", "created", "exc_info",
    "exc_text", "filename", "levelno", "module", "msecs",
    "msg", "name", "pathname", "process", "processName",
    "relativeCreated", "stack_info", "thread",
    "threadName"]

/- Why a record has no line. -/
inductive Error where
  | template (e : Template.Error)
  | raised (e : Raised.Error)
  | moment (e : Moment.RangeError)
  deriving DecidableEq, Repr

/- The message for such a record. -/
def Error.message : Error → String
  | .template e => e.message
  | .raised e => e.message
  | .moment e => e.message

/- Whether the message itself tells of an exception. -/
def tellsOfException
    (r : Record) : Bool :=
  (Json.valueOf? r.message.members "exc_info").any
    Json.isTruthy

/-
  What a record tells of an exception beyond its message:
  what was raised, or else the text of an exception.
-/
def exceptionText
    (r : Record) : Except Raised.Error (Option Json) :=
  if r.tellsOfException then
    .ok none
  else if r.raised.isTruthy then
    (Raised.text r.raised).map (fun s => some (.text s))
  else if r.exception.isTruthy then
    .ok (some r.exception)
  else
    .ok none

/-
  The named values of the message, with what the record
  tells of an exception.
-/
def withException
    (r : Record)
    (told : Option Json) : Json.Members :=
  match told with
  | some value => Json.put r.message.members "exc_info" value
  | none => r.message.members

/- The extras that add a field. -/
def addedExtras
    (r : Record) : Json.Members :=
  r.extras.filter
    (fun m =>
      !reservedNames.contains m.1 &&
        m.1.toList.head? != some '_')

/- The base fields with the text of the message. -/
def baseFields
    (r : Record)
    (text : List Text.Symbol) : Json.Members :=
  [("timestamp", .null), ("levelname", r.level),
    ("funcName", r.function), ("lineno", r.line),
    ("message", .ofSymbols text)]

/- Rename the level field to the name it has in a line. -/
def renameLevel
    (members : Json.Members) : Json.Members :=
  match Json.valueOf? members "levelname" with
  | none => members
  | some level =>
      Json.put (Json.erase members "levelname") "level" level

/- Keep the allowed fields. -/
def keepAllowed
    (members : Json.Members) : Json.Members :=
  members.filter (fun m => allowedFields.contains m.1)

/- Everything that is known before fields are dropped. -/
def collected
    (r : Record)
    (text : List Text.Symbol)
    (told : Option Json)
    (moment : Moment) : Json.Members :=
  let base := r.baseFields text
  let said := Json.putAll base (r.withException told)
  let extended := Json.putAll said r.addedExtras
  Json.put extended "timestamp" (.text moment.text)

/- The fields of the line of a record. -/
def fields
    (r : Record) : Except Error Json.Members :=
  match r.message.text with
  | .error e => .error (.template e)
  | .ok text =>
      match r.exceptionText with
      | .error e => .error (.raised e)
      | .ok told =>
          match Moment.ofSeconds r.created with
          | .error e => .error (.moment e)
          | .ok moment =>
              .ok (keepAllowed
                (renameLevel (r.collected text told moment)))

/- The line of a record. -/
def line?
    (r : Record) : Except Error String :=
  r.fields.map (fun members => Json.line (.object members))

------------------------------------------------------------
-- Records By Attribute
------------------------------------------------------------

/- A record that nothing is known of. -/
def blank : Record where
  level := .text ""
  function := .null
  line := .whole 0
  created := Double.ofInt 0
  message := .template (.text "") (.list [])

/- The arguments of a message, kept for another text. -/
def Message.arguments : Message → Arguments
  | .template _ arguments => arguments
  | .named _ => .list []

/- The template of a message, kept for other arguments. -/
def Message.withArguments
    (items : List Json) : Message → Message
  | .template text _ => .template text (.list items)
  | .named members => .named members

/- Set one attribute of a record. -/
def assign
    (r : Record)
    (name : String)
    (value : Json) : Record :=
  match name, value with
  | "levelname", v => { r with level := v }
  | "funcName", v => { r with function := v }
  | "lineno", v => { r with line := v }
  | "created", .real x => { r with created := x }
  | "msg", v =>
      { r with
        message := .ofJson v r.message.arguments }
  | "args", .list items =>
      { r with message := r.message.withArguments items }
  | "exc_text", v => { r with exception := v }
  | "exc_info", v => { r with raised := v }
  | key, v => { r with extras := Json.put r.extras key v }

end Record

end LocalCert
