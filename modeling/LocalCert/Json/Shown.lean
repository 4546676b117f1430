import LocalCert.Json.Value
import LocalCert.Number.Shortest
import LocalCert.Text.Quoted

/-
  JSON values as a message shows them: words with a capital,
  texts in quotes, lists and objects with their brackets.

  Key definitions include:
    * `Json.shown`
    * `Json.plainText`
    * `Json.typeName`
-/

------------------------------------------------------------
-- Shown Values
------------------------------------------------------------

namespace LocalCert

namespace Json

mutual

/- A value with its texts in quotes. -/
def shown : Json → List Char
  | .null => ['N', 'o', 'n', 'e']
  | .bool true => ['T', 'r', 'u', 'e']
  | .bool false => ['F', 'a', 'l', 's', 'e']
  | .whole i => (Text.intText i).toList
  | .real x => x.text.toList
  | .text s => Text.Quoted.encode s.toList
  | .ragged ss => Text.Quoted.encodeSymbols ss
  | .list items => '[' :: (shownItems items ++ [']'])
  | .object members =>
      '\x7b' :: (shownMembers members ++ ['\x7d'])

/- Values with commas between them. -/
def shownItems : List Json → List Char
  | [] => []
  | [item] => shown item
  | item :: items =>
      shown item ++ ',' :: ' ' :: shownItems items

/- Keys and values with commas between them. -/
def shownMembers : List (String × Json) → List Char
  | [] => []
  | [(key, value)] =>
      Text.Quoted.encode key.toList ++
        ':' :: ' ' :: shown value
  | (key, value) :: members =>
      Text.Quoted.encode key.toList ++
        ':' :: ' ' ::
          (shown value ++ ',' :: ' ' :: shownMembers members)

end

/- A value as it stands: a text has no quotes. -/
def plainText : Json → List Text.Symbol
  | .text s => Text.symbols s.toList
  | .ragged ss => ss
  | value => Text.symbols (shown value)

/- The word for the type of a value. -/
def typeName : Json → String
  | .null => "NoneType"
  | .bool _ => "bool"
  | .whole _ => "int"
  | .real _ => "float"
  | .text _ => "str"
  | .ragged _ => "str"
  | .list _ => "list"
  | .object _ => "dict"

/- Whether a value counts as something rather than nothing. -/
def isTruthy : Json → Bool
  | .null => false
  | .bool b => b
  | .whole i => i != 0
  | .real (.finite _ 0 _) => false
  | .real _ => true
  | .text s => !s.isEmpty
  | .ragged ss => !ss.isEmpty
  | .list items => !items.isEmpty
  | .object members => !members.isEmpty

end Json

end LocalCert
