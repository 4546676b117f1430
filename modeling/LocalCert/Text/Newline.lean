/-
  Line ends.  A text read from a file has one kind of line
  end: a carriage return with its line feed, or alone, reads
  as a line feed.

  Key definitions include:
    * `Text.unifyNewlines`
    * `Text.linesOf`
-/

------------------------------------------------------------
-- One Kind Of Line End
------------------------------------------------------------

namespace LocalCert

namespace Text

/- Write every line end as a line feed. -/
def unifyNewlines : List Char → List Char
  | [] => []
  | '\r' :: '\n' :: cs => '\n' :: unifyNewlines cs
  | '\r' :: cs => '\n' :: unifyNewlines cs
  | c :: cs => c :: unifyNewlines cs

------------------------------------------------------------
-- Pieces Between Separators
------------------------------------------------------------

/- The pieces between the occurrences of a separator. -/
def splitAll
    (separator : Char) : List Char → List (List Char)
  | [] => [[]]
  | c :: cs =>
      if c == separator then
        [] :: splitAll separator cs
      else
        match splitAll separator cs with
        | [] => [[c]]
        | p :: ps => (c :: p) :: ps

/-
  The parts before and after the first occurrence of a
  separator, if there is one.
-/
def splitFirst?
    (separator : Char) :
    List Char → Option (List Char × List Char)
  | [] => none
  | c :: cs =>
      if c == separator then
        some ([], cs)
      else
        (splitFirst? separator cs).map
          (fun p => (c :: p.1, p.2))

/- Join texts with a separator between them. -/
def joinWith
    (separator : String)
    (texts : List String) : String :=
  String.intercalate separator texts

end Text

end LocalCert
