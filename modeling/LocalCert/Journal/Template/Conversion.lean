import LocalCert.Journal.Template.Directive
import LocalCert.Number.Fixed

/-
  The conversion of an argument by the letter of a
  directive, and its padding.

  Key definitions include:
    * `Template.Converted`
    * `Template.Directive.convert`
    * `Template.Directive.pad`
-/

------------------------------------------------------------
-- Conversions
------------------------------------------------------------

namespace LocalCert

namespace Template

namespace Directive

open Text (Symbol symbols)

/-
  A converted argument: its sign, what stands between the
  sign and padding zeros, and its body.
-/
structure Converted where
  sign : List Char
  base : List Char
  body : List Symbol
  numeric : Bool

/- A text, cut at the precision. -/
def ofText
    (d : Directive)
    (ss : List Symbol) : Converted :=
  let body :=
    match d.precision with
    | some n => ss.take n
    | none => ss
  ⟨[], [], body, false⟩

/- The sign of a number. -/
def signOf
    (d : Directive)
    (negative : Bool) : List Char :=
  if negative then
    ['-']
  else if d.plus then
    ['+']
  else if d.blank then
    [' ']
  else
    []

/- A whole number in a base, filled up to the precision. -/
def ofWhole
    (d : Directive)
    (c : Char)
    (i : Int) : Converted :=
  let radix :=
    if c == 'o' then 8
    else if c == 'x' || c == 'X' then 16
    else 10
  let ds := Nat.toDigits radix i.natAbs
  let cased := if c == 'X' then ds.map Char.toUpper else ds
  let zeros := (d.precision.getD 0) - cased.length
  let base :=
    if d.alternate && radix != 10 then ['0', c] else []
  ⟨d.signOf (i < 0), base,
    symbols (List.replicate zeros '0' ++ cased), true⟩

/- The greatest precision of a whole number. -/
def maxPrecision : Nat := 2147483644

/- A whole number, unless its precision is too large. -/
def ofWholeChecked
    (d : Directive)
    (c : Char)
    (i : Int) : Except Error Converted :=
  if maxPrecision < d.precision.getD 0 then
    .error .precisionTooLarge
  else
    .ok (d.ofWhole c i)

/- An argument as a whole number. -/
def wholeArgument
    (c : Char)
    (value : Json) : Except Error Int :=
  match value with
  | .whole i => .ok i
  | .bool b => .ok (if b then 1 else 0)
  | .real x =>
      if c == 'o' || c == 'x' || c == 'X' then
        .error (.wholeNeeded c value.typeName)
      else
        match x with
        | .finite negative m e =>
            .ok (Double.truncate negative m e)
        | .infinite _ => .error .infinityAsWhole
        | .notNumber => .error .nanAsWhole
  | _ =>
      if c == 'o' || c == 'x' || c == 'X' then
        .error (.wholeNeeded c value.typeName)
      else
        .error (.numberNeeded c value.typeName)

/- An argument as a double. -/
def realArgument
    (value : Json) : Except Error Double :=
  match value with
  | .real x => .ok x
  | .bool b => .ok (Double.ofInt (if b then 1 else 0))
  | .whole i =>
      match Double.ofInt i with
      | .infinite _ => .error .wholeTooLarge
      | x => .ok x
  | _ => .error (.realNeeded value.typeName)

/- A double with the digits that the directive asks for. -/
def ofReal
    (d : Directive)
    (c : Char)
    (x : Double) : Converted :=
  let lower := c.toLower
  let style : Double.Style :=
    if lower == 'e' then .exponent
    else if lower == 'f' then .fixed
    else .general
  let cs :=
    x.withDigits style d.alternate (d.precision.getD 6)
  let cased := if c == lower then cs else cs.map Char.toUpper
  match cased with
  | '-' :: body => ⟨['-'], [], symbols body, true⟩
  | body => ⟨d.signOf false, [], symbols body, true⟩

/-
  An argument as one symbol: a text of one symbol, or the
  code of one.
-/
def ofSymbol
    (value : Json) : Except Error Converted :=
  match wholeOf? value with
  | some i =>
      if i < 0 || 0x110000 ≤ i then
        .error .characterRange
      else
        .ok ⟨[], [], [.ofCode i.toNat], false⟩
  | none =>
      match isText value, value.plainText with
      | true, [symbol] => .ok ⟨[], [], [symbol], false⟩
      | _, _ => .error .characterNeeded
where
  isText : Json → Bool
    | .text _ => true
    | .ragged _ => true
    | _ => false

/- The ASCII form of a text. -/
def asciiOnly
    (cs : List Char) : List Char :=
  cs.flatMap
    (fun c =>
      if c.toNat < 128 then [c]
      else Text.Quoted.codePoint c)

/- Convert an argument by the letter of a directive. -/
def convert
    (d : Directive)
    (letter : Symbol)
    (index : Nat)
    (value : Json) : Except Error Converted :=
  let c := letter.char?.getD '\x00'
  if c == 's' then
    .ok (d.ofText value.plainText)
  else if c == 'r' then
    .ok (d.ofText (symbols value.shown))
  else if c == 'a' then
    .ok (d.ofText (symbols (asciiOnly value.shown)))
  else if ['d', 'i', 'u', 'o', 'x', 'X'].contains c then
    (wholeArgument c value).bind (d.ofWholeChecked c)
  else if ['e', 'E', 'f', 'F', 'g', 'G'].contains c then
    (realArgument value).map (d.ofReal c)
  else if c == 'c' then
    ofSymbol value
  else
    .error (.unsupported letter index)

/- No text is padded to more symbols than this. -/
def maxWidth : Nat := 1099511627776

/- Pad a converted argument to the width. -/
def pad
    (d : Directive)
    (v : Converted) : List Symbol :=
  let front := v.sign ++ v.base
  let gap := d.width - (front.length + v.body.length)
  if d.left then
    symbols front ++ v.body ++
      symbols (List.replicate gap ' ')
  else if d.zero && v.numeric then
    symbols (front ++ List.replicate gap '0') ++ v.body
  else
    symbols (List.replicate gap ' ' ++ front) ++ v.body

end Directive

end Template

end LocalCert
