import LocalCert.Journal.Template.Supply
import LocalCert.Text.Digit

/-
  Directives of message templates: flags, width and
  precision, the last two of which may be taken from the
  arguments.

  Key definitions include:
    * `Template.Directive`
    * `Template.Directive.readFlags`
    * `Template.Directive.readWidth`
    * `Template.Directive.readPrecision`
-/

------------------------------------------------------------
-- Directives
------------------------------------------------------------

namespace LocalCert

namespace Template

open Text (Symbol)

/- What a directive asks for. -/
structure Directive where
  left : Bool := false
  plus : Bool := false
  blank : Bool := false
  alternate : Bool := false
  zero : Bool := false
  width : Nat := 0
  precision : Option Nat := none

namespace Directive

/- Read the flags. -/
def readFlags
    (d : Directive) :
    List Symbol → Directive × List Symbol
  | .char '-' :: ss => readFlags { d with left := true } ss
  | .char '+' :: ss => readFlags { d with plus := true } ss
  | .char ' ' :: ss => readFlags { d with blank := true } ss
  | .char '#' :: ss =>
      readFlags { d with alternate := true } ss
  | .char '0' :: ss => readFlags { d with zero := true } ss
  | ss => (d, ss)

/- The number that digits at the front denote, and the rest. -/
def readNumber
    (ss : List Symbol) : Nat × List Symbol :=
  let ds := ss.takeWhile Symbol.isDigit
  (Text.ofDecimalDigits (ds.filterMap Symbol.char?),
    ss.dropWhile Symbol.isDigit)

/- The whole number that an argument is. -/
def wholeOf? : Json → Option Int
  | .whole i => some i
  | .bool b => some (if b then 1 else 0)
  | _ => none

/-
  A whole number taken from the arguments; it fits a machine
  word of so many bits.
-/
def takeStar
    (bits : Nat)
    (word : String)
    (s : Supply) : Except Error (Int × Supply) := do
  let (value, s) ← s.next
  match wholeOf? value with
  | none => .error .starNotWhole
  | some i =>
      let bound := Int.ofNat (Nat.pow 2 (bits - 1))
      if i < -bound || bound ≤ i then
        .error (.starTooLarge word)
      else
        return (i, s)

/-
  The width that a number taken from the arguments means.
  The least machine word has no opposite, and means none.
-/
def widthOf
    (i : Int) : Nat :=
  if i == -Int.ofNat (Nat.pow 2 63) then 0 else i.natAbs

/- Read the width. -/
def readWidth
    (d : Directive)
    (s : Supply)
    (ss : List Symbol) :
    Except Error (Directive × Supply × List Symbol) := do
  match ss with
  | .char '*' :: ss =>
      let (i, s) ← takeStar 64 "ssize_t" s
      return ({ d with
        width := widthOf i
        left := d.left || i < 0 }, s, ss)
  | ss =>
      let (n, rest) := readNumber ss
      if Nat.pow 2 63 ≤ n then
        .error .widthTooBig
      else
        return ({ d with width := n }, s, rest)

/- Read the precision after its point, if there is one. -/
def readPrecision
    (d : Directive)
    (s : Supply)
    (ss : List Symbol) :
    Except Error (Directive × Supply × List Symbol) := do
  match ss with
  | .char '.' :: .char '*' :: ss =>
      let (i, s) ← takeStar 32 "int" s
      return ({ d with precision := some i.toNat }, s, ss)
  | .char '.' :: ss =>
      let (n, rest) := readNumber ss
      if Nat.pow 2 31 ≤ n then
        .error .precisionTooBig
      else
        return ({ d with precision := some n }, s, rest)
  | ss => return (d, s, ss)

/- Skip a letter for the size of a number. -/
def skipSize : List Symbol → List Symbol
  | .char 'h' :: ss => ss
  | .char 'l' :: ss => ss
  | .char 'L' :: ss => ss
  | ss => ss

end Directive

end Template

end LocalCert
