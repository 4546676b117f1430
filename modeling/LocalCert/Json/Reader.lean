import LocalCert.Json.Value
import LocalCert.Number.Reading

/-
  Reading JSON.  Besides the standard's grammar the words
  for the special doubles are read, since writing produces
  them; of two members with one key the later one counts.

  Key definitions include:
    * `Json.readText`
    * `Json.readValue`
    * `Json.ofText?`
-/

------------------------------------------------------------
-- Blanks And Words
------------------------------------------------------------

namespace LocalCert

namespace Json

/- The blanks between the tokens. -/
def isBlank
    (c : Char) : Bool :=
  c == ' ' || c == '\n' || c == '\r' || c == '\t'

/- Skip the blanks. -/
def skipBlanks
    (cs : List Char) : List Char :=
  cs.dropWhile isBlank

/- What follows a word at the front, if it stands there. -/
def afterWord? : List Char → List Char → Option (List Char)
  | [], cs => some cs
  | w :: ws, c :: cs =>
      if w == c then afterWord? ws cs else none
  | _ :: _, [] => none

------------------------------------------------------------
-- Strings
------------------------------------------------------------

/- The UTF-16 code unit that four digits denote. -/
def unitOfDigits?
    (a b c d : Char) : Option Nat :=
  match Text.hexValue a, Text.hexValue b,
      Text.hexValue c, Text.hexValue d with
  | some a, some b, some c, some d =>
      some (((a * 16 + b) * 16 + c) * 16 + d)
  | _, _, _, _ => none

/- The character that a letter after a backslash means. -/
def letterMeaning?
    (c : Char) : Option Nat :=
  match c with
  | '\x22' => some 0x22
  | '\x5c' => some 0x5C
  | '/' => some 0x2F
  | 'b' => some 8
  | 'f' => some 12
  | 'n' => some 10
  | 'r' => some 13
  | 't' => some 9
  | _ => none

/-
  The code points and code units of a string whose opening
  quote is read, and what follows its closing quote.
-/
def readUnits : List Char → Option (List Nat × List Char)
  | [] => none
  | '\x22' :: cs => some ([], cs)
  | '\x5c' :: 'u' :: a :: b :: c :: d :: cs => do
      let unit ← unitOfDigits? a b c d
      let (units, rest) ← readUnits cs
      return (unit :: units, rest)
  | '\x5c' :: e :: cs => do
      let point ← letterMeaning? e
      let (units, rest) ← readUnits cs
      return (point :: units, rest)
  | c :: cs =>
      if c.toNat < 32 || c == '\x5c' then
        none
      else do
        let (units, rest) ← readUnits cs
        return (c.toNat :: units, rest)

/- Join surrogate pairs; other halves stand alone. -/
def joinUnits : List Nat → List Text.Symbol
  | [] => []
  | h :: l :: ns =>
      if Text.Symbol.isHigh h && Text.Symbol.isLow l then
        .char (Char.ofNat
          (0x10000 + (h - 0xD800) * 0x400 +
            (l - 0xDC00))) :: joinUnits ns
      else
        .ofCode h :: joinUnits (l :: ns)
  | [n] => [.ofCode n]

/- The text of a string whose opening quote is read. -/
def readText
    (cs : List Char) :
    Option (List Text.Symbol × List Char) := do
  let (units, rest) ← readUnits cs
  return (joinUnits units, rest)

------------------------------------------------------------
-- Numbers
------------------------------------------------------------

/- The fraction of a number, and what follows. -/
def readFraction
    (cs : List Char) :
    Option (Option (List Char) × List Char) :=
  match cs with
  | '.' :: r =>
      let ds := r.takeWhile Text.isDigit
      if ds.isEmpty then
        none
      else
        some (some ds, r.dropWhile Text.isDigit)
  | r => some (none, r)

/- The exponent of a number, and what follows. -/
def readExponent
    (cs : List Char) : Option (Option Int × List Char) :=
  match cs with
  | [] => some (none, [])
  | e :: r =>
      if e == 'e' || e == 'E' then
        let (sign, r) :=
          match r with
          | '-' :: r => (['-'], r)
          | '+' :: r => ([], r)
          | r => ([], r)
        let ds := r.takeWhile Text.isDigit
        (Double.exponentOfText? (sign ++ ds)).map
          (fun x => (some x, r.dropWhile Text.isDigit))
      else
        some (none, e :: r)

/- A number without its sign. -/
def readUnsigned
    (negative : Bool)
    (cs : List Char) : Option (Json × List Char) := do
  let ds := cs.takeWhile Text.isDigit
  let rest := cs.dropWhile Text.isDigit
  if ds.isEmpty || (1 < ds.length && ds.head? == some '0') then
    none
  else
    let (fraction, rest) ← readFraction rest
    let (exponent, rest) ← readExponent rest
    if fraction.isNone && exponent.isNone then
      let n := Int.ofNat (Text.ofDecimalDigits ds)
      return (.whole (if negative then -n else n), rest)
    else
      let parts : Double.Unsigned :=
        ⟨ds, fraction.getD [], exponent.getD 0⟩
      return (.real (parts.toDouble negative), rest)

/- A number, or one of the words for the special doubles. -/
def readNumber
    (cs : List Char) : Option (Json × List Char) :=
  match afterWord? "-Infinity".toList cs with
  | some rest => some (.real (.infinite true), rest)
  | none =>
      match cs with
      | '-' :: r => readUnsigned true r
      | r => readUnsigned false r

------------------------------------------------------------
-- Values
------------------------------------------------------------

/- The values that are words. -/
def words : List (String × Json) :=
  [("null", .null), ("true", .bool true),
    ("false", .bool false), ("NaN", .real .notNumber),
    ("Infinity", .real (.infinite false))]

/- One of the words, or a number. -/
def readPlain
    (cs : List Char) : Option (Json × List Char) :=
  let word :=
    words.findSome? (fun w =>
      (afterWord? w.1.toList cs).map
        (fun rest => (w.2, rest)))
  match word with
  | some found => some found
  | none => readNumber cs

mutual

/- A value, and what follows it. -/
def readValue
    (fuel : Nat)
    (cs : List Char) : Option (Json × List Char) :=
  match fuel with
  | 0 => none
  | fuel + 1 =>
      match skipBlanks cs with
      | '\x22' :: r => do
          let (symbols, rest) ← readText r
          return (.ofSymbols symbols, rest)
      | '[' :: r =>
          match skipBlanks r with
          | ']' :: rest => some (.list [], rest)
          | r => do
              let (items, rest) ← readItems fuel r
              return (.list items, rest)
      | '\x7b' :: r =>
          match skipBlanks r with
          | '\x7d' :: rest => some (.object [], rest)
          | r => do
              let (members, rest) ← readMembers fuel r
              return (.object (putAll [] members), rest)
      | r => readPlain r
termination_by structural fuel

/- The items of a list, up to its closing bracket. -/
def readItems
    (fuel : Nat)
    (cs : List Char) : Option (List Json × List Char) :=
  match fuel with
  | 0 => none
  | fuel + 1 => do
      let (item, rest) ← readValue fuel cs
      match skipBlanks rest with
      | ']' :: rest => return ([item], rest)
      | ',' :: rest =>
          let (items, rest) ← readItems fuel rest
          return (item :: items, rest)
      | _ => none
termination_by structural fuel

/- The members of an object, up to its closing brace. -/
def readMembers
    (fuel : Nat)
    (cs : List Char) : Option (Members × List Char) :=
  match fuel with
  | 0 => none
  | fuel + 1 =>
      match skipBlanks cs with
      | '\x22' :: r => do
          let (symbols, rest) ← readText r
          let key ← Text.chars? symbols
          match skipBlanks rest with
          | ':' :: rest =>
              let (value, rest) ← readValue fuel rest
              let member := (String.ofList key, value)
              match skipBlanks rest with
              | '\x7d' :: rest => return ([member], rest)
              | ',' :: rest =>
                  let (members, rest) ←
                    readMembers fuel rest
                  return (member :: members, rest)
              | _ => none
          | _ => none
      | _ => none
termination_by structural fuel

end

/- Read a text that holds one value. -/
def ofText?
    (s : String) : Option Json := do
  let cs := s.toList
  let (value, rest) ← readValue (cs.length + 1) cs
  if (skipBlanks rest).isEmpty then
    return value
  else
    none

end Json

end LocalCert
