import LocalCert.Files.Fault
import LocalCert.Hostname
import LocalCert.Inspection.Defect
import LocalCert.Text.Utf8

/-
  Failures of provisioning: their causes, their messages,
  and the kinds by which a caller tells them apart.

  Key definitions include:
    * `Stage`
    * `ToolFailure`
    * `Unreadable`
    * `Failure`
    * `Failure.message`
    * `Failure.Kind`
    * `Failure.kind`
-/

------------------------------------------------------------
-- Failures Of Tools
------------------------------------------------------------

namespace LocalCert

/- The steps for which a tool is run. -/
inductive Stage where
  | trusted
  | key
  | request
  | signing
  deriving DecidableEq, Repr

/- The words for a step. -/
def Stage.label : Stage → String
  | .trusted => "trusted CA helper"
  | .key => "key generation"
  | .request => "CSR generation"
  | .signing => "certificate signing"

/- The message for a tool that is not installed. -/
def unavailableMessage
    (tool : String) : String :=
  tool ++ " executable not found on PATH"

/- Why a tool did not end by itself. -/
inductive ToolCause where
  | unavailable (tool : String)
  | timedOut
  | fault (f : Files.Fault)
  deriving DecidableEq, Repr

/-
  A step whose tool failed: what the tool said, and either
  its exit code or the reason why it has none.
-/
structure ToolFailure where
  stage : Stage
  tool : String
  stderr : String
  exit : Option Int
  cause : Option ToolCause
  deriving DecidableEq, Repr

namespace ToolFailure

/- The tool, with its exit code if it has one. -/
def status
    (t : ToolFailure) : String :=
  match t.exit with
  | some n => t.tool ++ ", exit " ++ Text.intText n
  | none => t.tool

/- The message for a failed step. -/
def message
    (t : ToolFailure) : String :=
  t.stage.label ++ " failed (" ++ t.status ++ "): " ++
    t.stderr

end ToolFailure

------------------------------------------------------------
-- Failures
------------------------------------------------------------

/- Why a file of the issued pair cannot be read. -/
inductive Unreadable where
  | fault (f : Files.Fault)
  | undecodable (e : Text.Utf8.DecodeError)
  deriving DecidableEq, Repr

/- The message of the cause. -/
def Unreadable.message : Unreadable → String
  | .fault f => f.message
  | .undecodable e => e.message

/- Everything that can stop the program's work. -/
inductive Failure where
  | hostname (d : Hostname.Defect)
  | noStrategy
  | emptyCommand
  | nulInPath
  | workspaceNotCreated (f : Files.Fault)
  | materialUnreadable (u : Unreadable)
  | noDirectory
  | tool (t : ToolFailure)
  | toolUnavailable (tool : String)
  | fault (f : Files.Fault)
  | inspection (d : Inspection.Defect)
  | provisioning (text : String)
  | workspace (text : String)
  | badValue (text : String)
  | badKey (text : String)
  | runtime (text : String)
  | interrupt (text : String)
  deriving DecidableEq, Repr

namespace Failure

/- The text that a failure was made with. -/
def text : Failure → String
  | .hostname d => d.message
  | .noStrategy => "at least one strategy is required"
  | .emptyCommand => "list index out of range"
  | .nulInPath => "embedded null byte"
  | .workspaceNotCreated f =>
      "failed to create workspace: " ++ f.message
  | .materialUnreadable u =>
      "failed to read issued key/certificate: " ++ u.message
  | .noDirectory =>
      "'list' object has no attribute 'mkdir'"
  | .tool t => t.message
  | .toolUnavailable name => unavailableMessage name
  | .fault f => f.message
  | .inspection d => d.message
  | .provisioning words => words
  | .workspace words => words
  | .badValue words => words
  | .badKey words => words
  | .runtime words => words
  | .interrupt words => words

/- The message of a failure; a missing key is quoted. -/
def message : Failure → String
  | .badKey words => Text.quoted words
  | f => f.text

------------------------------------------------------------
-- Kinds
------------------------------------------------------------

/- The kinds of failures. -/
inductive Kind where
  | any
  | provisioning
  | workspace
  | toolUnavailable
  | tool (stage : Stage)
  | value
  | undecodable
  | lookup
  | badIndex
  | badKey
  | runtime
  | badType
  | noAttribute
  | fault (c : Files.Category)
  | inspection (d : Inspection.Defect)
  | interrupt
  deriving DecidableEq, Repr

namespace Kind

/-
  The kinds that a kind belongs to, the nearest first.  An
  interrupt belongs to no other kind.
-/
def wider : Kind → List Kind
  | .any => []
  | .provisioning => [.any]
  | .workspace => [.provisioning, .any]
  | .toolUnavailable => [.provisioning, .any]
  | .tool .trusted => [.provisioning, .any]
  | .tool _ => [.tool .trusted, .provisioning, .any]
  | .value => [.any]
  | .undecodable => [.value, .any]
  | .lookup => [.any]
  | .badIndex => [.lookup, .any]
  | .badKey => [.lookup, .any]
  | .runtime => [.any]
  | .badType => [.any]
  | .noAttribute => [.any]
  | .fault .other => [.any]
  | .fault _ => [.fault .other, .any]
  | .inspection .malformed => [.value, .any]
  | .inspection .commonNameNotText => [.value, .any]
  | .inspection .unsuitable => [.badType, .any]
  | .inspection .unknownFeature =>
      [.badKey, .lookup, .any]
  | .inspection _ => [.any]
  | .interrupt => []

/- Whether a kind is another one or belongs to it. -/
def isA
    (k wide : Kind) : Bool :=
  k == wide || k.wider.contains wide

end Kind

/- The kind of a failure. -/
def kind : Failure → Kind
  | .hostname _ => .value
  | .noStrategy => .value
  | .emptyCommand => .badIndex
  | .nulInPath => .value
  | .workspaceNotCreated _ => .workspace
  | .materialUnreadable _ => .workspace
  | .noDirectory => .noAttribute
  | .tool t => .tool t.stage
  | .toolUnavailable _ => .toolUnavailable
  | .fault f => .fault f.category
  | .inspection d => .inspection d
  | .provisioning _ => .provisioning
  | .workspace _ => .workspace
  | .badValue _ => .value
  | .badKey _ => .badKey
  | .runtime _ => .runtime
  | .interrupt _ => .interrupt

/- A failure that lets the next strategy be tried. -/
def isRecoverable
    (f : Failure) : Bool :=
  f.kind.isA .any

end Failure

end LocalCert
