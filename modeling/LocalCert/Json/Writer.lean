import LocalCert.Json.Value
import LocalCert.Number.Shortest
import LocalCert.Text.Digit

/-
  Writing JSON on one line of printable ASCII: other
  characters are escaped by their UTF-16 code units, and a
  blank follows each comma and colon.

  Key definitions include:
    * `Json.escape`
    * `Json.quote`
    * `Json.write`
    * `Json.line`
-/

------------------------------------------------------------
-- Strings
------------------------------------------------------------

namespace LocalCert

namespace Json

/- A UTF-16 code unit by its four hexadecimal digits. -/
def escapeUnit
    (n : Nat) : List Char :=
  '\x5c' :: 'u' :: Text.hexDigits 4 n

/- One character inside a string. -/
def escape
    (c : Char) : List Char :=
  let n := c.toNat
  if c == '\x22' || c == '\x5c' then
    ['\x5c', c]
  else if c == '\n' then
    ['\x5c', 'n']
  else if c == '\r' then
    ['\x5c', 'r']
  else if c == '\t' then
    ['\x5c', 't']
  else if n == 8 then
    ['\x5c', 'b']
  else if n == 12 then
    ['\x5c', 'f']
  else if 32 ≤ n && n ≤ 126 then
    [c]
  else if n < 0x10000 then
    escapeUnit n
  else
    escapeUnit (0xD800 + (n - 0x10000) / 0x400) ++
      escapeUnit (0xDC00 + (n - 0x10000) % 0x400)

/- One symbol inside a string. -/
def escapeSymbol : Text.Symbol → List Char
  | .char c => escape c
  | .half n => escapeUnit n

/- A string between its quotes. -/
def quote
    (cs : List Char) : List Char :=
  '\x22' :: (cs.flatMap escape ++ ['\x22'])

/- A string of symbols between its quotes. -/
def quoteSymbols
    (ss : List Text.Symbol) : List Char :=
  '\x22' :: (ss.flatMap escapeSymbol ++ ['\x22'])

------------------------------------------------------------
-- Values
------------------------------------------------------------

/- The text of a double, with words for the special ones. -/
def realText : Double → String
  | .infinite false => "Infinity"
  | .infinite true => "-Infinity"
  | .notNumber => "NaN"
  | x => x.text

mutual

/- A value as characters. -/
def write : Json → List Char
  | .null => ['n', 'u', 'l', 'l']
  | .bool true => ['t', 'r', 'u', 'e']
  | .bool false => ['f', 'a', 'l', 's', 'e']
  | .whole i => (Text.intText i).toList
  | .real x => (realText x).toList
  | .text s => quote s.toList
  | .ragged ss => quoteSymbols ss
  | .list items => '[' :: writeItems items
  | .object members => '\x7b' :: writeMembers members

/- The items of a list and its closing bracket. -/
def writeItems : List Json → List Char
  | [] => [']']
  | [item] => write item ++ [']']
  | item :: items =>
      write item ++ ',' :: ' ' :: writeItems items

/- The members of an object and its closing brace. -/
def writeMembers : List (String × Json) → List Char
  | [] => ['\x7d']
  | [(key, value)] =>
      quote key.toList ++
        ':' :: ' ' :: (write value ++ ['\x7d'])
  | (key, value) :: members =>
      quote key.toList ++
        ':' :: ' ' ::
          (write value ++ ',' :: ' ' :: writeMembers members)

end

/- A value as a line of text. -/
def line
    (value : Json) : String :=
  String.ofList value.write

end Json

end LocalCert
