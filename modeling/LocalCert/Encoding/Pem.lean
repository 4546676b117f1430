import LocalCert.Encoding.Base64
import LocalCert.Text.Blank
import LocalCert.Text.Newline
import LocalCert.Text.Utf8

/-
  PEM: labelled sections of base sixty-four between lines of
  dashes.  What stands outside the sections says nothing,
  but one malformed section makes the whole text malformed.

  Key definitions include:
    * `Pem.Section`
    * `Pem.sections?`
    * `Pem.find?`
-/

------------------------------------------------------------
-- Marks
------------------------------------------------------------

namespace LocalCert

namespace Pem

/- The bytes of an ASCII text. -/
def mark
    (s : String) : Bytes :=
  s.toList.map (fun c => UInt8.ofNat c.toNat)

/-
  The bytes up to the end of a mark, and what follows.  What
  is left of the mark is compared byte by byte; a byte that
  does not fit begins no mark, and the search starts anew
  after it.
-/
def throughMark?
    (m left bytes : Bytes) : Option (Bytes × Bytes) :=
  match left, bytes with
  | [], rest => some ([], rest)
  | _ :: _, [] => none
  | a :: as, b :: bs =>
      (throughMark? m (if a == b then as else m) bs).map
        (fun p => (b :: p.1, p.2))

/- The parts before and after a mark. -/
def cutAt?
    (m bytes : Bytes) : Option (Bytes × Bytes) :=
  (throughMark? m m bytes).map
    (fun p => (p.1.take (p.1.length - m.length), p.2))

/- Skip blanks and line ends. -/
def skipBlanks
    (bytes : Bytes) : Bytes :=
  bytes.dropWhile
    (fun b => b == 32 || b == 9 || b == 10 || b == 13)

/- The text of bytes that must be well formed. -/
def text?
    (bytes : Bytes) : Option (List Char) :=
  match Text.Utf8.decode bytes with
  | .ok cs => some cs
  | .error _ => none

------------------------------------------------------------
-- Sections
------------------------------------------------------------

/- A section as it stands in the text. -/
structure Raw where
  opening : Bytes
  body : Bytes
  closing : Bytes

/- The first section, and what follows it. -/
def raw?
    (bytes : Bytes) : Option (Raw × Bytes) := do
  let (_, rest) ← cutAt? (mark "-----BEGIN ") bytes
  let (opening, rest) ← cutAt? (mark "-----") rest
  let (body, rest) ←
    cutAt? (mark "-----END ") (skipBlanks rest)
  let (closing, rest) ← cutAt? (mark "-----") rest
  return (⟨opening, body, closing⟩, skipBlanks rest)

/- All sections; there are at most as many as bytes. -/
def raws
    (bound : Nat)
    (bytes : Bytes) : List Raw :=
  match bound with
  | 0 => []
  | bound + 1 =>
      match raw? bytes with
      | none => []
      | some (r, rest) => r :: raws bound rest

/- A section: its label, its headers and what it holds. -/
structure Section where
  label : String
  headers : List (String × String)
  contents : Bytes
  deriving DecidableEq, Repr

/- The lines of a text; the last line may lack its end. -/
def lines
    (cs : List Char) : List (List Char) :=
  let pieces := Text.splitAll '\n' cs
  if pieces.getLast? == some [] then pieces.dropLast
  else pieces

/- The headers and the rest, parted by an empty line. -/
def partHeaders
    (body : Bytes) : Bytes × Bytes :=
  match cutAt? (mark "\n\n") body with
  | some parts => parts
  | none =>
      match cutAt? (mark "\r\n\r\n") body with
      | some parts => parts
      | none => ([], body)

/- A text without white space at its ends. -/
def trim
    (cs : List Char) : String :=
  String.ofList (Text.trimBy Text.isWhiteSpace cs)

/- A header: a name and a value with a colon between. -/
def header?
    (line : List Char) : Option (String × String) :=
  (Text.splitFirst? ':' line).map
    (fun p => (trim p.1, trim p.2))

/- What a section holds, if it is well formed. -/
def Raw.section?
    (r : Raw) : Option Section := do
  let opening ← text? r.opening
  let closing ← text? r.closing
  if opening.isEmpty || opening != closing then
    none
  else
    let (front, body) := partHeaders r.body
    let front ← text? front
    let headers ← (lines front).mapM header?
    let body ← text? body
    let contents ←
      Base64.decode?
        (body.filter (fun c => !Text.isWhiteSpace c))
    return ⟨String.ofList opening, headers, contents⟩

/- All sections of a text, if all are well formed. -/
def sections?
    (bytes : Bytes) : Option (List Section) :=
  (raws bytes.length bytes).mapM Raw.section?

/- The first section whose label is one of those given. -/
def find?
    (labels : List String)
    (bytes : Bytes) : Option Section := do
  let sections ← sections? bytes
  sections.find? (fun s => labels.contains s.label)

/- The value of the last header of a name. -/
def Section.header?
    (s : Section)
    (name : String) : Option String :=
  (s.headers.reverse.find? (fun h => h.1 == name)).map
    Prod.snd

end Pem

end LocalCert
