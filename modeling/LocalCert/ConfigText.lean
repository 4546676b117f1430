import LocalCert.Text.Blank
import LocalCert.Text.Newline

/-
  How a tool reads configuration text: sections of named
  values, and inside a value comments, escapes, quotes and
  references to variables.

  Key definitions include:
    * `ConfigText.Line`
    * `ConfigText.lines`
    * `ConfigText.readValue`
-/

------------------------------------------------------------
-- Lines
------------------------------------------------------------

namespace LocalCert

namespace ConfigText

/- A line of a configuration text. -/
inductive Line where
  | blank
  | header (name : List Char)
  | entry (name value : List Char)
  | other (text : List Char)
  deriving DecidableEq, Repr

/- The line that characters are. -/
def Line.ofChars
    (cs : List Char) : Line :=
  let cs := Text.trimBy Text.isBlank cs
  match cs with
  | [] => .blank
  | '[' :: rest =>
      if rest.getLast? == some ']' then
        .header (Text.trimBy Text.isBlank rest.dropLast)
      else
        .other cs
  | cs =>
      match Text.splitFirst? '=' cs with
      | some (name, value) =>
          .entry (Text.trimBy Text.isBlank name)
            (Text.trimBy Text.isBlank value)
      | none => .other cs

/- The lines of a text. -/
def lines
    (text : String) : List Line :=
  (Text.splitAll '\n' text.toList).map Line.ofChars

------------------------------------------------------------
-- Values
------------------------------------------------------------

/- What a variable stands for. -/
abbrev Variables : Type :=
  List Char → List Char

/- Whether a character opens and closes a quoted span. -/
def isQuote
    (c : Char) : Bool :=
  c == '\x22' || c == '\x27' || c == '\x60'

/- Whether a character can stand in a variable's name. -/
def isNameChar
    (c : Char) : Bool :=
  c.isAlphanum || c == '_'

/- What the reader of a value is inside of. -/
inductive Mode where
  | plain
  | escaped
  | comment
  | quoted (quote : Char)
  | variable (name : List Char)
  deriving DecidableEq, Repr

/-
  A character outside quotes: a number sign starts a
  comment, a dollar sign the name of a variable, a backslash
  an escaped character, and a quote a quoted span.
-/
def readPlain
    (c : Char) : Mode × List Char :=
  if c == '#' then
    (.comment, [])
  else if c == '$' then
    (.variable [], [])
  else if c == '\x5c' then
    (.escaped, [])
  else if isQuote c then
    (.quoted c, [])
  else
    (.plain, [c])

/- What a character adds to the value, and the mode after. -/
def readChar
    (meaning : Variables)
    (c : Char) : Mode → Mode × List Char
  | .plain => readPlain c
  | .escaped => (.plain, [c])
  | .comment => (.comment, [])
  | .quoted q =>
      if c == q then (.plain, []) else (.quoted q, [c])
  | .variable name =>
      if isNameChar c then
        (.variable (c :: name), [])
      else
        let (mode, added) := readPlain c
        (mode, meaning name.reverse ++ added)

/- What the end of the text adds to the value. -/
def readEnd
    (meaning : Variables) : Mode → List Char
  | .variable name => meaning name.reverse
  | _ => []

/- Read a value to its end. -/
def readValue
    (meaning : Variables)
    (mode : Mode) : List Char → List Char
  | [] => readEnd meaning mode
  | c :: cs =>
      let (mode, added) := readChar meaning c mode
      added ++ readValue meaning mode cs

/- The value of a text. -/
def valueOf
    (meaning : Variables)
    (text : String) : String :=
  String.ofList (readValue meaning .plain text.toList)

end ConfigText

end LocalCert
