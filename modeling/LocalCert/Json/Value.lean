import LocalCert.Number.Double
import LocalCert.Text.Symbol

/-
  JSON values.  Whole numbers and doubles are kept apart,
  texts that are not well formed from those that are, and an
  object is the list of its members in order.

  Key definitions include:
    * `Json`
    * `Json.ofSymbols`
    * `Json.member?`
    * `Json.put`
    * `Json.erase`
-/

------------------------------------------------------------
-- Values
------------------------------------------------------------

namespace LocalCert

/- A JSON value. -/
inductive Json where
  | null
  | bool (b : Bool)
  | whole (i : Int)
  | real (x : Double)
  | text (s : String)
  /- A text in which halves of surrogate pairs stand alone. -/
  | ragged (symbols : List Text.Symbol)
  | list (items : List Json)
  | object (members : List (String × Json))
  deriving Repr, Inhabited

namespace Json

/- A text of symbols. -/
def ofSymbols
    (ss : List Text.Symbol) : Json :=
  match Text.chars? ss with
  | some cs => .text (String.ofList cs)
  | none => .ragged ss

/- The members of an object, in order. -/
abbrev Members : Type :=
  List (String × Json)

------------------------------------------------------------
-- Members
------------------------------------------------------------

/- The value of a key. -/
def valueOf?
    (members : Members)
    (key : String) : Option Json :=
  (members.find? (fun m => m.1 == key)).map Prod.snd

/- Whether a key has a value. -/
def hasKey
    (members : Members)
    (key : String) : Bool :=
  members.any (fun m => m.1 == key)

/-
  Give a key a value: in the place of its old value, or at
  the end.
-/
def put
    (members : Members)
    (key : String)
    (value : Json) : Members :=
  if hasKey members key then
    members.map
      (fun m => if m.1 == key then (key, value) else m)
  else
    members ++ [(key, value)]

/- Take a key and its value away. -/
def erase
    (members : Members)
    (key : String) : Members :=
  members.filter (fun m => m.1 != key)

/- Put one list of members after another into the first. -/
def putAll
    (members others : Members) : Members :=
  others.foldl (fun ms m => put ms m.1 m.2) members

/- The value of a key of an object. -/
def member? : Json → String → Option Json
  | .object members, key => valueOf? members key
  | _, _ => none

end Json

end LocalCert
