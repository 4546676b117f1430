/-
  The blank characters of the Unicode standard, and the
  trimming of blank margins.

  Key definitions include:
    * `Text.isWhiteSpace`
    * `Text.isBlank`
    * `Text.trim`
-/

------------------------------------------------------------
-- Blank Characters
------------------------------------------------------------

namespace LocalCert

namespace Text

/-
  White space is a space separator, a line or paragraph
  separator, or one of the controls that move the line.
-/
def isWhiteSpace
    (c : Char) : Bool :=
  let n := c.toNat
  (9 ≤ n && n ≤ 13) ||
    n == 32 ||
    n == 0x85 ||
    n == 0xA0 ||
    n == 0x1680 ||
    (0x2000 ≤ n && n ≤ 0x200A) ||
    n == 0x2028 ||
    n == 0x2029 ||
    n == 0x202F ||
    n == 0x205F ||
    n == 0x3000

/- A blank is white space or a separator of information. -/
def isBlank
    (c : Char) : Bool :=
  isWhiteSpace c || (28 ≤ c.toNat && c.toNat ≤ 31)

/- The blanks inside ASCII. -/
def isAsciiBlank
    (c : Char) : Bool :=
  let n := c.toNat
  n == 32 || (9 ≤ n && n ≤ 13)

------------------------------------------------------------
-- Trimming
------------------------------------------------------------

/- Drop the characters of a class from both ends. -/
def trimBy
    (drops : Char → Bool)
    (cs : List Char) : List Char :=
  let front := cs.dropWhile drops
  (front.reverse.dropWhile drops).reverse

/- Drop the blanks from both ends of a text. -/
def trim
    (s : String) : String :=
  String.ofList (trimBy isBlank s.toList)

end Text

end LocalCert
