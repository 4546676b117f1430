import LocalCert.Files.Path
import LocalCert.Number.Reading
import LocalCert.Number.Shortest
import LocalCert.Subject

/-
  The configuration of a provisioner: the tools to run, the
  time each of them has, and the fields of the subject.

  Key definitions include:
    * `Seconds`
    * `Config`
    * `Config.Setting`
    * `Config.assign`
    * `Config.subject`
-/

------------------------------------------------------------
-- Seconds
------------------------------------------------------------

namespace LocalCert

/-
  The seconds that a tool may run: a whole number or a
  double.  They are dropped when only the mark for the end
  of the switches was given for them.
-/
inductive Seconds where
  | whole (i : Int)
  | real (x : Double)
  | dropped
  deriving DecidableEq, Repr, Inhabited

/- The text for a value that was dropped. -/
def droppedText : String := "[]"

namespace Seconds

/- The text of the seconds. -/
def text : Seconds → String
  | .whole i => Text.intText i
  | .real x => x.text
  | .dropped => droppedText

/-
  Read seconds: digits after an optional minus sign are a
  whole number, any other number is a double.
-/
def ofText?
    (s : String) : Option Seconds :=
  let (negative, ds) :=
    match s.toList with
    | '-' :: r => (true, r)
    | r => (false, r)
  if !ds.isEmpty && ds.all Text.isDigit then
    let n := Int.ofNat (Text.ofDecimalDigits ds)
    some (.whole (if negative then -n else n))
  else
    (Double.ofText? s).map .real

/- Ten seconds. -/
def ten : Seconds :=
  .real (Double.ofInt 10)

end Seconds

------------------------------------------------------------
-- Configuration
------------------------------------------------------------

/- What a provisioner is configured with. -/
structure Config where
  trustedTool : String := "mkcert"
  cryptoTool : String := "openssl"
  curve : String := "prime256v1"
  validityDays : Int := 30
  toolTimeout : Seconds := .ten
  workspaceDir : Option Path := none
  country : String := "US"
  state : String := "Test"
  locality : String := "Test"
  organization : String := "Dev Certs"
  organizationalUnit : String := "Test"
  deriving DecidableEq, Repr, Inhabited

namespace Config

/- The assignment of one field. -/
inductive Setting where
  | trustedTool (tool : String)
  | cryptoTool (tool : String)
  | curve (name : String)
  | validityDays (days : Int)
  | toolTimeout (seconds : Seconds)
  | workspaceDir (dir : Option Path)
  | country (value : String)
  | state (value : String)
  | locality (value : String)
  | organization (value : String)
  | organizationalUnit (value : String)
  deriving DecidableEq, Repr

/- Assign one field. -/
def assign
    (c : Config) : Setting → Config
  | .trustedTool x => { c with trustedTool := x }
  | .cryptoTool x => { c with cryptoTool := x }
  | .curve x => { c with curve := x }
  | .validityDays x => { c with validityDays := x }
  | .toolTimeout x => { c with toolTimeout := x }
  | .workspaceDir x => { c with workspaceDir := x }
  | .country x => { c with country := x }
  | .state x => { c with state := x }
  | .locality x => { c with locality := x }
  | .organization x => { c with organization := x }
  | .organizationalUnit x =>
      { c with organizationalUnit := x }

/- Assign fields one after another. -/
def assignAll
    (c : Config)
    (settings : List Setting) : Config :=
  settings.foldl assign c

/- The subject for a common name. -/
def subject
    (c : Config)
    (commonName : String) : Subject.DistinguishedName where
  country := c.country
  state := c.state
  locality := c.locality
  organization := c.organization
  organizationalUnit := c.organizationalUnit
  commonName := commonName

end Config

end LocalCert
