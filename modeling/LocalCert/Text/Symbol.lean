import LocalCert.Text.Quoted

/-
  Texts in which halves of surrogate pairs may stand alone.
  Such a half is no character, but it can be written down
  and counts as one place of a text.

  Key definitions include:
    * `Text.Symbol`
    * `Text.Symbol.ofCode`
    * `Text.symbols`
    * `Text.chars?`
-/

------------------------------------------------------------
-- Symbols
------------------------------------------------------------

namespace LocalCert

namespace Text

/- A character, or the code of half a surrogate pair. -/
inductive Symbol where
  | char (c : Char)
  | half (code : Nat)
  deriving DecidableEq, Repr

namespace Symbol

/- The first halves of surrogate pairs. -/
def isHigh
    (n : Nat) : Bool :=
  0xD800 ≤ n && n < 0xDC00

/- The second halves of surrogate pairs. -/
def isLow
    (n : Nat) : Bool :=
  0xDC00 ≤ n && n < 0xE000

/- The symbol with a code. -/
def ofCode
    (n : Nat) : Symbol :=
  if isHigh n || isLow n then .half n
  else .char (Char.ofNat n)

/- The code of a symbol. -/
def code : Symbol → Nat
  | .char c => c.toNat
  | .half n => n

/- The character that a symbol is, if it is one. -/
def char? : Symbol → Option Char
  | .char c => some c
  | .half _ => none

/- Whether a symbol is a decimal digit of ASCII. -/
def isDigit : Symbol → Bool
  | .char c => Text.isDigit c
  | .half _ => false

end Symbol

------------------------------------------------------------
-- Texts As Symbols
------------------------------------------------------------

/- Characters as symbols. -/
def symbols
    (cs : List Char) : List Symbol :=
  cs.map .char

/- The characters of symbols, if no half stands alone. -/
def chars?
    (ss : List Symbol) : Option (List Char) :=
  ss.mapM Symbol.char?

/- One symbol inside the given quotes. -/
def Quoted.escapeSymbol
    (quote : Char) : Symbol → List Char
  | .char c => Quoted.escape quote c
  | .half n => Quoted.backslash :: 'u' :: hexDigits 4 n

/- The quoted form of symbols. -/
def Quoted.encodeSymbols
    (ss : List Symbol) : List Char :=
  let quote := Quoted.delimiter (ss.filterMap Symbol.char?)
  quote :: (ss.flatMap (Quoted.escapeSymbol quote) ++ [quote])

end Text

end LocalCert
