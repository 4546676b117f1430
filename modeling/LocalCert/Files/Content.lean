import LocalCert.Files.Tree.Operations

/-
  Contents to be placed in a file tree: bytes, a directory
  with those above it, or nothing.  What cannot be placed is
  left out.

  Key definitions include:
    * `Files.Content`
    * `Files.Tree.makeDirectories`
    * `Files.Tree.place`
-/

------------------------------------------------------------
-- Directories With Those Above Them
------------------------------------------------------------

namespace LocalCert

namespace Files

/- The mode of a new directory. -/
def directoryMode : Nat := 0o755

/- The mode of a new file. -/
def fileMode : Nat := 0o644

namespace Tree

/-
  A directory that is there already is as good as a new one;
  any other refusal is a fault.
-/
def acceptDirectory
    (t : Tree)
    (cwd : Location)
    (text : String)
    (r : Refusal) : Option Fault :=
  if t.isDirectoryAt cwd text then
    none
  else
    some (.ofRefusal r text)

/-
  Make a directory and those above it that are missing, with
  the fault that stopped it, if any.  The bound is the
  number of directories that may be missing.
-/
def makeUpwards
    (bound : Nat)
    (t : Tree)
    (cwd : Location)
    (path : Path) : Option Fault × Tree :=
  match t.makeDirectory cwd directoryMode path.text with
  | .ok t => (none, t)
  | .error .missing =>
      match bound with
      | 0 => (some (.ofRefusal .missing path.text), t)
      | bound + 1 =>
          match makeUpwards bound t cwd path.parent with
          | (some f, t) => (some f, t)
          | (none, t) =>
              match t.makeDirectory cwd directoryMode
                  path.text with
              | .ok t => (none, t)
              | .error r =>
                  (t.acceptDirectory cwd path.text r, t)
  | .error r => (t.acceptDirectory cwd path.text r, t)

/- Make a directory and those above it that are missing. -/
def makeDirectories
    (t : Tree)
    (cwd : Location)
    (path : Path) : Option Fault × Tree :=
  makeUpwards path.parts.length t cwd path

end Tree

------------------------------------------------------------
-- Contents
------------------------------------------------------------

/- What is to stand at a path. -/
inductive Body where
  | bytes (content : List UInt8)
  | directory
  | nothing
  deriving DecidableEq, Repr

/- What is to stand at a path, with its mode if given. -/
structure Content where
  body : Body
  mode : Option Nat := none
  deriving DecidableEq, Repr

/-
  Whether a content is a directory that its owner cannot
  write to.
-/
def Content.isLocked
    (c : Content) : Bool :=
  c.body == .directory &&
    c.mode.any (fun mode => !grants mode .write)

/- A text as the content of a file. -/
def Content.ofText
    (s : String) : Content :=
  { body := .bytes (Text.Utf8.encodeText s) }

namespace Tree

/- Write a file, if the path lets one be written. -/
def writeFile
    (t : Tree)
    (cwd : Location)
    (text : String)
    (content : List UInt8) : Except Refusal Tree :=
  (t.openForWriting cwd fileMode text).map
    (fun p => p.2.fill p.1 content)

/- Give what stands at a path other permission bits. -/
def changeMode
    (t : Tree)
    (cwd : Location)
    (text : String)
    (mode : Option Nat) : Tree :=
  match mode, t.locate cwd text with
  | some mode, .ok l => t.setMode l mode
  | _, _ => t

/- Place a content at a path, or leave the tree as it is. -/
def place
    (t : Tree)
    (cwd : Location)
    (text : String)
    (content : Content) : Tree :=
  match content.body with
  | .nothing => t
  | .directory =>
      match t.makeDirectories cwd (Path.ofText text) with
      | (none, t) => t.changeMode cwd text content.mode
      | (some _, t) => t
  | .bytes bytes =>
      if Path.asksForDirectory text then
        t
      else
        match t.writeFile cwd text bytes with
        | .ok t => t.changeMode cwd text content.mode
        | .error _ => t

/- Place contents one after another. -/
def placeAll
    (t : Tree)
    (cwd : Location)
    (contents : List (String × Content)) : Tree :=
  contents.foldl (fun t c => t.place cwd c.1 c.2) t

end Tree

end Files

end LocalCert
