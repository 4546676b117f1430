import LocalCert.Subject

/-
  Reading back what is requested: a list of alternative
  names at its commas and colons, and a subject at its
  slashes and equals signs.

  Key definitions include:
    * `Subject.readPairs?`
    * `Subject.readAltNames?`
    * `Subject.readAttributes?`
-/

------------------------------------------------------------
-- Pairs
------------------------------------------------------------

namespace LocalCert

namespace Subject

/- Pieces, each parted at its first mark. -/
def readPairs?
    (mark : Char)
    (pieces : List (List Char)) :
    Option (List (String × String)) :=
  pieces.mapM (fun p =>
    (Text.splitFirst? mark p).map
      (fun q => (String.ofList q.1, String.ofList q.2)))

------------------------------------------------------------
-- Alternative Names
------------------------------------------------------------

/- The alternative name of a kind, if the kind is known. -/
def altNameOfPair? :
    String × String → Option AltName
  | ("DNS", name) => some (.dns name)
  | ("IP", name) => some (.address name)
  | _ => none

/-
  Read a list of alternative names: kind and name of each
  piece between commas are parted by its first colon.
-/
def readAltNames?
    (text : String) : Option (List AltName) := do
  let pairs ← readPairs? ':' (Text.splitAll ',' text.toList)
  pairs.mapM altNameOfPair?

------------------------------------------------------------
-- Subjects
------------------------------------------------------------

/-
  Read the attributes of a subject: each piece after a slash
  is parted by its first equals sign.
-/
def readAttributes?
    (text : String) : Option (List (String × String)) :=
  match Text.splitAll '/' text.toList with
  | [] :: pieces => readPairs? '=' pieces
  | _ => none

end Subject

end LocalCert
