import LocalCert.Failure
import LocalCert.Text.Newline
import LocalCert.Journal.Logger

/-
  The events that the program reports while it provisions a
  certificate, with their levels, messages and context.

  Key definitions include:
    * `Event`
    * `Event.level`
    * `Event.message`
    * `Event.context`
    * `Event.record`
-/

------------------------------------------------------------
-- Events
------------------------------------------------------------

namespace LocalCert

/- The name of the strategy that runs the trusted tool. -/
def trustedName : String := "trusted-tool"

/- The name of the strategy that signs by itself. -/
def manualName : String := "manual"

/- Something to report. -/
inductive Event where
  | runningTool (tool : String) (command : List String)
  | workspaceCreated (path : String)
  | workspaceNotRemoved (path : String) (f : Files.Fault)
  | issued (tool hostname : String)
  | selfSigned (tool hostname : String)
  | fellBack (strategy hostname : String) (f : Failure)
  | requested (hostname : String)
  | created
  | keyFile (path : String)
  | certFile (path : String)
  | serial (text : String)
  | altNames (names : List String)
  | expires (text : String)
  | provisioningFailed (f : Failure)
  | writingFailed (f : Files.Fault)
  deriving DecidableEq, Repr

namespace Event

/- The level of an event. -/
def level : Event → Int
  | .runningTool _ _ => Level.debug
  | .workspaceCreated _ => Level.debug
  | .workspaceNotRemoved _ _ => Level.warning
  | .fellBack _ _ _ => Level.warning
  | .provisioningFailed _ => Level.error
  | .writingFailed _ => Level.error
  | _ => Level.info

/- The message of an event. -/
def message : Event → String
  | .runningTool _ command =>
      "Running " ++ Text.joinWith " " command
  | .workspaceCreated path => "Created workspace " ++ path
  | .workspaceNotRemoved path f =>
      "Failed to remove workspace " ++ path ++ ": " ++
        f.message
  | .issued tool _ => "Issued certificate with " ++ tool
  | .selfSigned tool _ =>
      "Issued self-signed certificate with " ++ tool
  | .fellBack strategy _ f =>
      strategy ++ " strategy failed, falling back: " ++
        f.message
  | .requested hostname =>
      "Provisioning certificate for: " ++ hostname
  | .created => "Certificate created:"
  | .keyFile path => "  Key: " ++ path
  | .certFile path => "  Cert: " ++ path
  | .serial text => "  Serial: " ++ text
  | .altNames names => "  SAN: " ++ Text.joinWith ", " names
  | .expires text => "  Expires: " ++ text
  | .provisioningFailed f =>
      "Certificate provisioning failed: " ++ f.message
  | .writingFailed f =>
      "Failed to write certificate files: " ++ f.message

/- The context of an issued or failed attempt. -/
def attempt
    (strategy hostname : String) : Json.Members :=
  [("strategy", .text strategy), ("hostname", .text hostname)]

/- The extras of an event. -/
def context : Event → Json.Members
  | .runningTool tool _ => [("tool", .text tool)]
  | .issued _ hostname => attempt trustedName hostname
  | .selfSigned _ hostname => attempt manualName hostname
  | .fellBack strategy hostname _ => attempt strategy hostname
  | _ => []

/- The record of an event at a time. -/
def record
    (e : Event)
    (created : Double) : Record :=
  { Record.blank with
    level := .text (Level.name e.level)
    created := created
    message := .template (.text e.message) (.list [])
    extras := e.context }

end Event

end LocalCert
