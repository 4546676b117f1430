import LocalCert.Certificate.Summary
import LocalCert.CommandLine.Help
import LocalCert.Output

/-
  Carrying out a command line: provision a pair, leave it in
  the output directory, and tell what was issued.

  Key definitions include:
    * `CommandLine.Result`
    * `CommandLine.perform`
    * `CommandLine.run`
-/

------------------------------------------------------------
-- Provisioning And Telling
------------------------------------------------------------

namespace LocalCert

namespace CommandLine

/- How the program ends. -/
inductive Result where
  | finished (status : Nat)
  | stopped (s : Stop)
  | failed (f : Failure)
  deriving DecidableEq, Repr

/- The summary of an issued certificate. -/
def inspect
    (cert : String) : Act Certificate.Summary :=
  let found :=
    (Certificate.ofPem (Text.Utf8.encodeText cert)).bind
      Certificate.summary
  match found with
  | .ok s => pure s
  | .error d => Act.fail (.inspection d)

/- Tell what was issued, and where it was left. -/
def tell
    (dir : Path)
    (s : Certificate.Summary) : Act Unit := do
  Act.report .created
  Act.report (.keyFile (Output.keyPath dir).text)
  Act.report (.certFile (Output.certPath dir).text)
  Act.report (.serial s.serial)
  Act.report (.altNames s.altNames)
  Act.report (.expires s.validTo)

/- Leave an issued pair in a directory, and tell of it. -/
def deliver
    (dir : Path)
    (m : Material) : Act Unit := do
  Output.write dir m
  let s ← inspect m.cert
  tell dir s

/-
  Do everything that the options ask for.  A hostname that
  was dropped is as good as an empty one.
-/
def fulfil
    (o : Options) : Act Unit := do
  Act.report (.requested (o.hostname.getD droppedText))
  let m ←
    (Provisioner.standard World.config).provision
      (o.hostname.getD "")
  match o.outputDir with
  | some dir => deliver dir m
  | none => Act.fail .noDirectory

------------------------------------------------------------
-- Results
------------------------------------------------------------

/- The world in which the options are carried out. -/
def prepare
    (o : Options)
    (w : World) : World :=
  let logger :=
    if o.verbose then
      { w.logger with level := Level.debug }
    else
      w.logger
  { w with
    logger := logger
    config := { toolTimeout := o.timeout } }

/-
  The event by which a failure is told, if it is one that
  ends the program in an orderly way.
-/
def eventOf?
    (f : Failure) : Option Event :=
  if f.kind.isA .provisioning || f.kind.isA .value then
    some (.provisioningFailed f)
  else
    match f with
    | .fault g => some (.writingFailed g)
    | _ => none

/- Carry out options. -/
def perform
    (o : Options)
    (w : World) : Result × World :=
  match (fulfil o).runIn (prepare o w) with
  | (.ok (), w) => (.finished 0, w)
  | (.error f, w) =>
      match eventOf? f with
      | some e => (.finished 1, w.report e)
      | none => (.failed f, w)

/- Carry out a command line. -/
def run
    (arguments : List String)
    (w : World) : Result × World :=
  match options arguments with
  | .error s => (.stopped s, w)
  | .ok o => perform o w

/- What is printed as the answer. -/
def Result.stdout : Result → String
  | .stopped s => s.stdout
  | _ => ""

/- What is printed as an error, apart from the journal. -/
def Result.stderr : Result → String
  | .stopped s => s.stderr
  | _ => ""

end CommandLine

end LocalCert
