import LocalCert.Text.Digit
import LocalCert.Text.Newline

/-
  The switches of the command line, and the reading of a
  word as one of them.  A name may be cut short as long as
  it stays clear which switch is meant.

  Key definitions include:
    * `CommandLine.Switch`
    * `CommandLine.named`
    * `CommandLine.Role`
    * `CommandLine.roleOf`
-/

------------------------------------------------------------
-- Switches
------------------------------------------------------------

namespace LocalCert

namespace CommandLine

/- The switches that are known. -/
inductive Switch where
  | help
  | hostname
  | outputDir
  | timeout
  | verbose
  deriving DecidableEq, Repr

/- The names of all switches, in the order of the help. -/
def named : List (String × Switch) :=
  [("-h", .help),
    ("--help", .help),
    ("--hostname", .hostname),
    ("--output-dir", .outputDir),
    ("--timeout", .timeout),
    ("--verbose", .verbose)]

/- The switch with a full name. -/
def switch?
    (name : String) : Option Switch :=
  (named.find? (fun n => n.1 == name)).map Prod.snd

namespace Switch

/- All names of a switch, as messages show it. -/
def label
    (s : Switch) : String :=
  Text.joinWith "/"
    ((named.filter (fun n => n.2 == s)).map Prod.fst)

/- Whether a switch comes with a value. -/
def takesValue : Switch → Bool
  | .help => false
  | .verbose => false
  | _ => true

end Switch

------------------------------------------------------------
-- Words
------------------------------------------------------------

/- A value in the same word as its switch. -/
inductive Attached where
  /- After an equals sign. -/
  | equal (value : List Char)
  /- After a name of one letter, to be read as letters. -/
  | joined (value : List Char)
  deriving DecidableEq, Repr

/- The role of a word in the command line. -/
inductive Role where
  | plain
  | separator
  | unknown
  | switch (s : Switch) (attached : Option Attached)
  deriving DecidableEq, Repr

/- The word that ends the switches. -/
def separatorText : String := "--"

/- Whether all characters are decimal digits. -/
def areDigits
    (cs : List Char) : Bool :=
  cs.all (fun c => (Text.decimalValue c).isSome)

/- Characters without one line end after them. -/
def withoutLineEnd
    (cs : List Char) : List Char :=
  if cs.getLast? == some '\n' then cs.dropLast else cs

/-
  Whether a word is a negative number: digits of any script,
  with at most one point, which is not the last.
-/
def isNegativeNumber
    (word : List Char) : Bool :=
  match word with
  | '-' :: cs =>
      match Text.splitAll '.' (withoutLineEnd cs) with
      | [whole] => !whole.isEmpty && areDigits whole
      | [whole, fraction] =>
          areDigits whole && !fraction.isEmpty &&
            areDigits fraction
      | _ => false
  | _ => false

/- Whether a name is a dash and one letter. -/
def isLetterName : List Char → Bool
  | ['-', c] => c != '-'
  | _ => false

/-
  The name in a word, and the value after it if any.  A
  value that follows one letter counts as joined to it.
-/
def partEqual
    (word : List Char) : List Char × Option Attached :=
  match Text.splitFirst? '=' word with
  | some (name, value) =>
      if isLetterName name && !value.isEmpty then
        (name, some (.joined value))
      else
        (name, some (.equal value))
  | none => (word, none)

/- The names that a word may be cut short from. -/
def candidates
    (word : List Char) :
    List (String × Switch × Option Attached) :=
  let (beginning, attached) := partEqual word
  if word.take 2 == ['-', '-'] then
    (named.filter
      (fun n => beginning.isPrefixOf n.1.toList)).map
        (fun n => (n.1, n.2, attached))
  else
    named.filterMap (fun n =>
      if n.1.toList == word.take 2 then
        some (n.1, n.2, some (.joined (word.drop 2)))
      else if word.isPrefixOf n.1.toList then
        some (n.1, n.2, none)
      else
        none)

/- The role of a word that is no full name of a switch. -/
def roleOfOther
    (word : List Char) : Role :=
  if isNegativeNumber word || word.contains ' ' then
    .plain
  else
    .unknown

/-
  The role of a word, or the names among which it does not
  decide.
-/
def roleOf
    (word : String) : Except (List String) Role :=
  let cs := word.toList
  let (name, attached) := partEqual cs
  if word == separatorText then
    .ok .separator
  else if cs.head? != some '-' then
    .ok .plain
  else if let some s := switch? word then
    .ok (.switch s none)
  else if cs.length == 1 then
    .ok .plain
  else if let (some s, some value) :=
      (switch? (String.ofList name), attached) then
    .ok (.switch s (some value))
  else
    match candidates cs with
    | [] => .ok (roleOfOther cs)
    | [(_, s, attached)] => .ok (.switch s attached)
    | several => .error (several.map Prod.fst)

end CommandLine

end LocalCert
