import LocalCert.Text.Blank
import LocalCert.Text.Quoted

/-
  Hostnames that can stand in a certificate request: plain
  ASCII without blanks and without the characters that
  separate fields on a command line or in an extension.

  Key definitions include:
    * `Hostname.Defect`
    * `Hostname.Defect.message`
    * `Hostname.validate`
-/

------------------------------------------------------------
-- Defects
------------------------------------------------------------

namespace LocalCert

namespace Hostname

/- The reason why a hostname is refused. -/
inductive Defect where
  | empty
  | leadingDash (hostname : String)
  | notAscii (hostname : String)
  | tooLong
  | badCharacter (c : Char) (hostname : String)
  deriving DecidableEq, Repr

/- The greatest length of a hostname. -/
def maxLength : Nat := 253

/- The message for a refused hostname. -/
def Defect.message : Defect → String
  | .empty => "hostname must not be empty"
  | .leadingDash h =>
      "hostname must not start with '-': " ++ Text.quoted h
  | .notAscii h =>
      "hostname must be ASCII, use the IDNA (punycode) " ++
        "form instead: " ++ Text.quoted h
  | .tooLong =>
      "hostname longer than " ++ toString maxLength ++
        " characters"
  | .badCharacter c h =>
      "hostname contains invalid character " ++
        Text.quoted (String.singleton c) ++ ": " ++
        Text.quoted h

------------------------------------------------------------
-- Validation
------------------------------------------------------------

/-
  The characters that separate fields in a subject or in a
  list of alternative names.
-/
def reserved : List Char :=
  ['/', ',', '=', '+', '\x5c', '\x22']

/- A character that no hostname may hold. -/
def isBad
    (c : Char) : Bool :=
  Text.isBlank c || !Text.isPrintable c ||
    reserved.contains c

/- An ASCII character. -/
def isAscii
    (c : Char) : Bool :=
  c.toNat < 128

/- Give the hostname back, or its first defect. -/
def validate
    (hostname : String) : Except Defect String :=
  let cs := hostname.toList
  if cs.isEmpty then
    .error .empty
  else if cs.head? == some '-' then
    .error (.leadingDash hostname)
  else if !cs.all isAscii then
    .error (.notAscii hostname)
  else if maxLength < cs.length then
    .error .tooLong
  else
    match cs.find? isBad with
    | some c => .error (.badCharacter c hostname)
    | none => .ok hostname

end Hostname

end LocalCert
