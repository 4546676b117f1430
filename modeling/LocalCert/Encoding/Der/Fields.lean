import LocalCert.Encoding.Der.Content

/-
  The fields of sequences, read one after another.  A field
  may be left out if what comes next cannot begin it, and
  when all fields are read nothing may be left over.

  Key definitions include:
    * `Der.Fields`
    * `Der.Fields.need`
    * `Der.Fields.optional`
    * `Der.Fields.explicit`
    * `Der.Fields.implicit`
    * `Der.Fields.orUsual`
    * `Der.Element.fields?`
-/

------------------------------------------------------------
-- Readers Of Fields
------------------------------------------------------------

namespace LocalCert

namespace Der

/- A reader of some of the elements that stand in a row. -/
abbrev Fields (α : Type) : Type :=
  StateT (List Element) Option α

namespace Fields

variable {α : Type}

/- A field that must be there. -/
def need
    (read : Element → Option α) : Fields α :=
  fun es =>
    match es with
    | [] => none
    | e :: es => (read e).map (fun a => (a, es))

/- A field that is there if the next element can begin it. -/
def optional
    (begins : Tag → Bool)
    (read : Element → Option α) : Fields (Option α) :=
  fun es =>
    match es with
    | [] => some (none, [])
    | e :: es =>
        if begins e.tag then
          (read e).map (fun a => (some a, es))
        else
          some (none, e :: es)

/- An optional field with one tag. -/
def withTag
    (tag : Tag)
    (read : Element → Option α) : Fields (Option α) :=
  optional (· == tag) read

/- An optional field inside a tag of its own. -/
def explicit
    (number : Nat)
    (read : Element → Option α) : Fields (Option α) :=
  withTag (Tag.contextual true number)
    (fun e => (e.inside? number).bind read)

/- An optional field whose tag another one replaces. -/
def implicit
    (number : Nat)
    (tag : Tag)
    (read : Element → Option α) : Fields (Option α) :=
  withTag (Tag.contextual tag.constructed number)
    (fun e => read (e.as tag))

/-
  A field that is left out if and only if it has its usual
  value.
-/
def orUsual
    [BEq α]
    (usual : α)
    (field : Fields (Option α)) : Fields α := do
  match ← field with
  | none => return usual
  | some a => if a == usual then failure else return a

end Fields

------------------------------------------------------------
-- Sequences
------------------------------------------------------------

namespace Element

variable {α : Type}

/- What a reader makes of all elements in a row. -/
def readRow?
    (fields : Fields α)
    (es : List Element) : Option α := do
  let (a, rest) ← fields.run es
  if rest.isEmpty then
    return a
  else
    none

/- The fields of a sequence. -/
def fields?
    (fields : Fields α)
    (e : Element) : Option α := do
  readRow? fields (← e.items?)

/- The items of a sequence, each read in the same way. -/
def each?
    (read : Element → Option α)
    (e : Element) : Option (List α) := do
  (← e.items?).mapM read

end Element

end Der

end LocalCert
