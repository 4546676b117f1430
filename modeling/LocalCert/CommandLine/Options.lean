import LocalCert.CommandLine.Switch
import LocalCert.Provisioner

/-
  The options that a command line gives, or why it is not
  carried out.  Releases of the option parser differ in two
  ways, and the older ones are followed:

    * a value that is attached to its switch and is the
      separator (`--hostname=--`) is dropped, where the newer
      ones keep it;
    * letters that are joined to a switch without a value
      (`-hX`) are looked at before it is carried out, where
      the newer ones show the help first.

  Key definitions include:
    * `CommandLine.Options`
    * `CommandLine.Misuse`
    * `CommandLine.Stop`
    * `CommandLine.options`
-/

------------------------------------------------------------
-- Options
------------------------------------------------------------

namespace LocalCert

namespace CommandLine

/-
  What the command line asks for.  A hostname or a directory
  is missing when its value was dropped, which only the older
  releases do.
-/
structure Options where
  hostname : Option String :=
    some Provisioner.defaultHostname
  outputDir : Option Path := some (Path.ofText "certs")
  timeout : Seconds := .ten
  verbose : Bool := false
  deriving DecidableEq, Repr

/- What is wrong with a command line. -/
inductive Misuse where
  | ambiguous (word : String) (names : List String)
  | needlessValue (s : Switch) (value : String)
  | missingValue (s : Switch)
  | notNumber (value : String)
  | unrecognized (words : List String)
  deriving DecidableEq, Repr

/- The message for a wrong argument of a switch. -/
def aboutSwitch
    (s : Switch)
    (words : String) : String :=
  "argument " ++ s.label ++ ": " ++ words

/- The message for a wrong command line. -/
def Misuse.message : Misuse → String
  | .ambiguous word names =>
      "ambiguous option: " ++ word ++ " could match " ++
        Text.joinWith ", " names
  | .needlessValue s value =>
      aboutSwitch s
        ("ignored explicit argument " ++ Text.quoted value)
  | .missingValue s => aboutSwitch s "expected one argument"
  | .notNumber value =>
      aboutSwitch .timeout
        ("invalid float value: " ++ Text.quoted value)
  | .unrecognized words =>
      "unrecognized arguments: " ++ Text.joinWith " " words

/- Why a command line is not carried out. -/
inductive Stop where
  | help
  | misuse (m : Misuse)
  deriving DecidableEq, Repr

------------------------------------------------------------
-- Single Switches
------------------------------------------------------------

/- Options with the value of a switch. -/
def Options.assign
    (o : Options)
    (s : Switch)
    (value : String) : Except Stop Options :=
  match s with
  | .hostname => .ok { o with hostname := some value }
  | .outputDir =>
      .ok { o with outputDir := some (Path.ofText value) }
  | .timeout =>
      match Double.ofText? value with
      | some x => .ok { o with timeout := .real x }
      | none => .error (.misuse (.notNumber value))
  | _ => .ok o

/-
  Options in which the value of a switch is dropped, as the
  older releases do with the separator.
-/
def Options.drop
    (o : Options)
    (s : Switch) : Options :=
  match s with
  | .hostname => { o with hostname := none }
  | .outputDir => { o with outputDir := none }
  | .timeout => { o with timeout := .dropped }
  | _ => o

/- Options after a switch without a value. -/
def Options.turnOn
    (o : Options)
    (s : Switch) : Except Stop Options :=
  match s with
  | .help => .error .help
  | .verbose => .ok { o with verbose := true }
  | _ => .ok o

/-
  The rest of a word from the first character that is no
  switch of one letter.
-/
def unknownFrom? : List Char → Option (List Char)
  | [] => none
  | c :: cs =>
      if (switch? (String.ofList ['-', c])).isNone then
        some (c :: cs)
      else
        unknownFrom? cs

/-
  The part of a word that cannot follow a switch without a
  value; joined switches of one letter may follow it.  It is
  refused before any of them is carried out: `-hX` is in
  error and shows no help, as in the older releases.
-/
def misfit? : Attached → Option (List Char)
  | .equal value => some value
  | .joined value => unknownFrom? value

/-
  Options after a switch with an attached value.  A value
  that is the separator is dropped, as in the older releases;
  the newer ones would assign it.
-/
def Options.attach
    (o : Options)
    (s : Switch)
    (attached : Attached) : Except Stop Options :=
  let value :=
    match attached with
    | .equal value => value
    | .joined value => value
  if s.takesValue then
    if String.ofList value == separatorText then
      .ok (o.drop s)
    else
      o.assign s (String.ofList value)
  else
    match misfit? attached with
    | some rest =>
        .error (.misuse
          (.needlessValue s (String.ofList rest)))
    | none => o.turnOn s

------------------------------------------------------------
-- Whole Command Lines
------------------------------------------------------------

/- A word and its role. -/
abbrev Part : Type :=
  String × Role

/- The roles of words; all are plain after the separator. -/
def parts : List String → Except Stop (List Part)
  | [] => .ok []
  | word :: words =>
      match roleOf word with
      | .error names =>
          .error (.misuse (.ambiguous word names))
      | .ok .separator =>
          .ok ((word, .separator) ::
            words.map (fun w => (w, .plain)))
      | .ok role => (parts words).map ((word, role) :: ·)

/- Carry out the words in order; some are left over. -/
def collect
    (o : Options) :
    List Part → Except Stop (Options × List String)
  | [] => .ok (o, [])
  | (_, .switch s (some attached)) :: rest => do
      let o ← o.attach s attached
      collect o rest
  | (_, .switch s none) :: rest =>
      if s.takesValue then
        match rest with
        | (value, .plain) :: rest => do
            let o ← o.assign s value
            collect o rest
        | _ => .error (.misuse (.missingValue s))
      else do
        let o ← o.turnOn s
        collect o rest
  | (word, _) :: rest => do
      let (o, left) ← collect o rest
      return (o, word :: left)

/- The options that a command line gives. -/
def options
    (arguments : List String) : Except Stop Options := do
  let parts ← parts arguments
  let (o, left) ← collect {} parts
  if left.isEmpty then
    return o
  else
    .error (.misuse (.unrecognized left))

end CommandLine

end LocalCert
