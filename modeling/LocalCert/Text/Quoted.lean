import LocalCert.Text.Printable
import LocalCert.Text.Digit

/-
  Quoted text: the form in which messages show a text that
  may hold anything.  The result stands between single
  quotes, or between double quotes when the text has single
  quotes only, and holds printable characters alone.

  Key definitions include:
    * `Text.Quoted.delimiter`
    * `Text.Quoted.escape`
    * `Text.quoted`
-/

------------------------------------------------------------
-- Escapes
------------------------------------------------------------

namespace LocalCert

namespace Text

namespace Quoted

/- The single quote. -/
def single : Char := '\x27'

/- The double quote. -/
def double : Char := '\x22'

/- The backslash. -/
def backslash : Char := '\x5c'

/-
  The quote that surrounds a text: the single one, unless
  the text holds it and holds no double one.
-/
def delimiter
    (cs : List Char) : Char :=
  if cs.contains single && !cs.contains double then
    double
  else
    single

/-
  A character that is not printable, by its code point: two,
  four or eight hexadecimal digits, the fewest that hold it.
-/
def codePoint
    (c : Char) : List Char :=
  let n := c.toNat
  if n < 0x100 then
    backslash :: 'x' :: hexDigits 2 n
  else if n < 0x10000 then
    backslash :: 'u' :: hexDigits 4 n
  else
    backslash :: 'U' :: hexDigits 8 n

/- One character inside the given quotes. -/
def escape
    (quote : Char)
    (c : Char) : List Char :=
  if c == quote || c == backslash then
    [backslash, c]
  else if c == '\t' then
    [backslash, 't']
  else if c == '\n' then
    [backslash, 'n']
  else if c == '\r' then
    [backslash, 'r']
  else if isPrintable c then
    [c]
  else
    codePoint c

/- The quoted form of a list of characters. -/
def encode
    (cs : List Char) : List Char :=
  let quote := delimiter cs
  quote :: (cs.flatMap (escape quote) ++ [quote])

end Quoted

/- The quoted form of a text. -/
def quoted
    (s : String) : String :=
  String.ofList (Quoted.encode s.toList)

end Text

end LocalCert
