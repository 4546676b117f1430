import LocalCert.Json.Shown

/-
  The arguments of a message template, and why they may not
  fit the template.

  Key definitions include:
    * `Template.Error`
    * `Template.Error.message`
    * `Template.Supply`
-/

------------------------------------------------------------
-- Errors
------------------------------------------------------------

namespace LocalCert

namespace Template

/- Why arguments do not fit a template. -/
inductive Error where
  | argumentsLeft
  | argumentsMissing
  | incomplete
  | incompleteKey
  | mappingNeeded
  | keyMissing (key : List Text.Symbol)
  | starNotWhole
  | starTooLarge (word : String)
  | widthTooBig
  | precisionTooBig
  | precisionTooLarge
  | outOfMemory
  | unsupported (symbol : Text.Symbol) (index : Nat)
  | numberNeeded (c : Char) (given : String)
  | wholeNeeded (c : Char) (given : String)
  | realNeeded (given : String)
  | characterNeeded
  | characterRange
  | infinityAsWhole
  | nanAsWhole
  | wholeTooLarge
  deriving DecidableEq, Repr

/- The sorts of errors. -/
inductive Error.Sort where
  | type
  | value
  | overflow
  | key
  | memory
  deriving DecidableEq, Repr

/- The sort of an error. -/
def Error.sort : Error → Error.Sort
  | .incomplete => .value
  | .incompleteKey => .value
  | .widthTooBig => .value
  | .precisionTooBig => .value
  | .unsupported _ _ => .value
  | .nanAsWhole => .value
  | .starTooLarge _ => .overflow
  | .characterRange => .overflow
  | .infinityAsWhole => .overflow
  | .wholeTooLarge => .overflow
  | .precisionTooLarge => .overflow
  | .keyMissing _ => .key
  | .outOfMemory => .memory
  | _ => .type

/- A symbol in a message, if it is plain ASCII. -/
def plainOrQuestion : Text.Symbol → String
  | .char c =>
      if 31 ≤ c.toNat && c.toNat ≤ 126 then
        String.singleton c
      else
        "?"
  | .half _ => "?"

/- The message of an error. -/
def Error.message : Error → String
  | .argumentsLeft =>
      "not all arguments converted during string formatting"
  | .argumentsMissing =>
      "not enough arguments for format string"
  | .incomplete => "incomplete format"
  | .incompleteKey => "incomplete format key"
  | .mappingNeeded => "format requires a mapping"
  | .keyMissing key =>
      String.ofList (Text.Quoted.encodeSymbols key)
  | .starNotWhole => "* wants int"
  | .starTooLarge word =>
      "Python int too large to convert to C " ++ word
  | .widthTooBig => "width too big"
  | .precisionTooBig => "precision too big"
  | .precisionTooLarge => "precision too large"
  | .outOfMemory => ""
  | .unsupported symbol index =>
      "unsupported format character '" ++
        plainOrQuestion symbol ++ "' (0x" ++
        String.ofList (Nat.toDigits 16 symbol.code) ++
        ") at index " ++ toString index
  | .numberNeeded c given =>
      "%" ++ String.singleton c ++
        " format: a real number is required, not " ++ given
  | .wholeNeeded c given =>
      "%" ++ String.singleton c ++
        " format: an integer is required, not " ++ given
  | .realNeeded given =>
      "must be real number, not " ++ given
  | .characterNeeded => "%c requires int or char"
  | .characterRange => "%c arg not in range(0x110000)"
  | .infinityAsWhole =>
      "cannot convert float infinity to integer"
  | .nanAsWhole => "cannot convert float NaN to integer"
  | .wholeTooLarge => "int too large to convert to float"

------------------------------------------------------------
-- Arguments
------------------------------------------------------------

/-
  The arguments still to be taken, and the mapping in which
  keys are looked up, if there is one.
-/
structure Supply where
  mapping : Option Json.Members
  items : List Json

namespace Supply

/- The arguments of a message. -/
def ofArguments
    (items : List Json) : Supply :=
  ⟨none, items⟩

/- A mapping as the only argument. -/
def ofMapping
    (members : Json.Members) : Supply :=
  ⟨some members, [.object members]⟩

/- Take the next argument. -/
def next
    (s : Supply) : Except Error (Json × Supply) :=
  match s.items with
  | [] => .error .argumentsMissing
  | item :: items => .ok (item, { s with items := items })

/- Make the value of a key the next argument. -/
def choose
    (s : Supply)
    (key : List Text.Symbol) : Except Error Supply :=
  match s.mapping with
  | none => .error .mappingNeeded
  | some members =>
      let found := do
        let cs ← Text.chars? key
        Json.valueOf? members (String.ofList cs)
      match found with
      | none => .error (.keyMissing key)
      | some value => .ok { s with items := [value] }

end Supply

end Template

end LocalCert
