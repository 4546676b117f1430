import LocalCert.Text.Newline

/-
  Path texts.  A path is a root and the parts below it;
  empty parts and single dots say nothing and are left out,
  double dots are kept.

  Key definitions include:
    * `Path`
    * `Path.ofText`
    * `Path.text`
    * `Path.child`
    * `Path.joinText`
-/

------------------------------------------------------------
-- Paths
------------------------------------------------------------

namespace LocalCert

/- Where a path starts. -/
inductive PathRoot where
  /- At the current directory. -/
  | relative
  /- At the root directory. -/
  | root
  /- At the root directory, written with two slashes. -/
  | twoSlashes
  deriving DecidableEq, Repr, Inhabited

/- A path: its root and its parts. -/
structure Path where
  root : PathRoot
  parts : List String
  deriving DecidableEq, Repr, Inhabited

namespace Path

/- The root that the slashes in front of a text mean. -/
def rootOfChars : List Char → PathRoot
  | '/' :: '/' :: '/' :: _ => .root
  | '/' :: '/' :: _ => .twoSlashes
  | '/' :: _ => .root
  | _ => .relative

/- The parts between the slashes that say something. -/
def partsOfChars
    (cs : List Char) : List String :=
  ((Text.splitAll '/' cs).map String.ofList).filter
    (fun p => p != "" && p != ".")

/- Read a path. -/
def ofText
    (s : String) : Path :=
  ⟨rootOfChars s.toList, partsOfChars s.toList⟩

/- The text of a root. -/
def rootText : PathRoot → String
  | .relative => ""
  | .root => "/"
  | .twoSlashes => "//"

/- The text of a path; the empty relative path is a dot. -/
def text
    (p : Path) : String :=
  if p.root == .relative && p.parts.isEmpty then
    "."
  else
    rootText p.root ++ Text.joinWith "/" p.parts

/- The path of a name inside a directory. -/
def child
    (p : Path)
    (name : String) : Path :=
  ⟨p.root, p.parts ++ [name]⟩

/- The path without its last part. -/
def parent
    (p : Path) : Path :=
  ⟨p.root, p.parts.dropLast⟩

/- Whether a path text can only lead to a directory. -/
def asksForDirectory
    (text : String) : Bool :=
  let last := (Text.splitAll '/' text.toList).getLast?
  last == some [] || last == some ['.']

/-
  Two path texts after one another; the second alone if it
  starts at the root.
-/
def joinText
    (a b : String) : String :=
  if b.toList.head? == some '/' then
    b
  else if a.isEmpty || a.toList.getLast? == some '/' then
    a ++ b
  else
    a ++ "/" ++ b

end Path

end LocalCert
