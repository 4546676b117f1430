import LocalCert.Journal.Template.Conversion

/-
  Message templates: a percent sign starts a directive that
  is replaced by the next argument, converted and padded as
  the directive says.

  Key definitions include:
    * `Template.directive`
    * `Template.format`
-/

------------------------------------------------------------
-- Formatting
------------------------------------------------------------

namespace LocalCert

namespace Template

open Text (Symbol)

/-
  The key before the closing parenthesis that fits, and what
  follows; `depth` is the number of open parentheses.
-/
def readKey
    (depth : Nat) :
    List Symbol → Option (List Symbol × List Symbol)
  | [] => none
  | c :: cs =>
      if c == .char ')' then
        match depth with
        | 0 => some ([], cs)
        | depth + 1 =>
            (readKey depth cs).map
              (fun p => (c :: p.1, p.2))
      else
        (readKey (if c == .char '(' then depth + 1 else depth)
          cs).map (fun p => (c :: p.1, p.2))

/- Look up the key of a directive, if it has one. -/
def chooseKey
    (s : Supply)
    (ss : List Symbol) :
    Except Error (Supply × List Symbol) :=
  match ss with
  | .char '(' :: r =>
      match s.mapping with
      | none => .error .mappingNeeded
      | some _ =>
          match readKey 0 r with
          | none => .error .incompleteKey
          | some (key, rest) =>
              (s.choose key).map (fun s => (s, rest))
  | ss => .ok (s, ss)

/-
  One directive after its percent sign: its replacement, the
  arguments left and what follows.
-/
def directive
    (total : Nat)
    (s : Supply)
    (ss : List Symbol) :
    Except Error (List Symbol × Supply × List Symbol) := do
  let (s, ss) ← chooseKey s ss
  let (d, ss) := Directive.readFlags {} ss
  let (d, s, ss) ← d.readWidth s ss
  let (d, s, ss) ← d.readPrecision s ss
  match Directive.skipSize ss with
  | [] => .error .incomplete
  | letter :: rest =>
      let (value, s) ← s.next
      let converted ←
        d.convert letter (total - rest.length - 1) value
      if Directive.maxWidth < d.width then
        .error .outOfMemory
      else
        return (d.pad converted, s, rest)

/- Format the rest of a template. -/
def formatRest
    (fuel total : Nat)
    (s : Supply)
    (ss : List Symbol) : Except Error (List Symbol) :=
  match fuel, ss with
  | 0, _ => .ok []
  | _, [] =>
      if s.mapping.isNone && !s.items.isEmpty then
        .error .argumentsLeft
      else
        .ok []
  | fuel + 1, .char '%' :: .char '%' :: ss =>
      (formatRest fuel total s ss).map (.char '%' :: ·)
  | fuel + 1, .char '%' :: ss => do
      let (replaced, s, rest) ← directive total s ss
      let tail ← formatRest fuel total s rest
      return replaced ++ tail
  | fuel + 1, c :: ss =>
      (formatRest fuel total s ss).map (c :: ·)

/- Replace the directives of a template by arguments. -/
def format
    (template : List Symbol)
    (s : Supply) : Except Error (List Symbol) :=
  formatRest (template.length + 1) template.length s template

end Template

end LocalCert
