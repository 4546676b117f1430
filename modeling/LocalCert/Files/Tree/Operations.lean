import LocalCert.Files.Tree.Basic

/-
  What can be done with a file tree.  The operations check
  the owner's permissions and say why they refuse.

  Key definitions include:
    * `Files.Tree.makeDirectory`
    * `Files.Tree.openForWriting`
    * `Files.Tree.fill`
    * `Files.Tree.read`
    * `Files.Tree.removeAll`
-/

------------------------------------------------------------
-- Making And Writing
------------------------------------------------------------

namespace LocalCert

namespace Files

namespace Tree

/- Whether a new name may be made or removed in its place. -/
def checkParent
    (t : Tree)
    (l : Location) : Except Refusal Unit :=
  match t.check .write l.dropLast with
  | .error r => .error r
  | .ok () => t.check .enter l.dropLast

/- Make a directory. -/
def makeDirectory
    (t : Tree)
    (cwd : Location)
    (mode : Nat)
    (text : String) : Except Refusal Tree := do
  let l ← t.locate cwd text
  match t.at? l with
  | some _ => .error .alreadyExists
  | none =>
      t.checkParent l
      return t.put l (.directory mode)

/-
  Empty the file at a path for writing, or make it with the
  given mode; the location is given back with the tree.
-/
def openForWriting
    (t : Tree)
    (cwd : Location)
    (mode : Nat)
    (text : String) : Except Refusal (Location × Tree) := do
  let l ← t.locate cwd text
  match t.at? l with
  | some (.directory _) => .error .isDirectory
  | some (.file old _) =>
      if grants old .write then
        return (l, t.put l (.file old []))
      else
        .error .denied
  | none =>
      t.checkParent l
      return (l, t.put l (.file mode []))

/- Give a node other permission bits. -/
def setMode
    (t : Tree)
    (l : Location)
    (mode : Nat) : Tree :=
  match t.at? l with
  | some node =>
      if t.occupied l then t.put l (node.withMode mode) else t
  | none => t

/- Fill the file at a location. -/
def fill
    (t : Tree)
    (l : Location)
    (bytes : List UInt8) : Tree :=
  match t.at? l with
  | some (.file mode _) => t.put l (.file mode bytes)
  | _ => t

------------------------------------------------------------
-- Reading
------------------------------------------------------------

/- The bytes of the file at a path. -/
def read
    (t : Tree)
    (cwd : Location)
    (text : String) : Except Refusal (List UInt8) := do
  let l ← t.locate cwd text
  match t.at? l with
  | none => .error .missing
  | some node =>
      if !grants node.mode .read then
        .error .denied
      else
        match node with
        | .directory _ => .error .isDirectory
        | .file _ bytes => return bytes

/- Whether a path leads to a directory. -/
def isDirectoryAt
    (t : Tree)
    (cwd : Location)
    (text : String) : Bool :=
  match t.locate cwd text with
  | .ok l =>
      match t.at? l with
      | some node => node.isDirectory
      | none => false
  | .error _ => false

------------------------------------------------------------
-- Removing
------------------------------------------------------------

/-
  Whether a node below a directory resists removal: it is a
  directory that cannot be read, or its own directory cannot
  be changed.
-/
def resists
    (t : Tree)
    (n : Location × Node) : Bool :=
  (n.2.isDirectory && !grants n.2.mode .read) ||
    (match t.checkParent n.1 with
      | .ok () => false
      | .error _ => true)

/-
  Remove a directory with everything in it.  The fault, if
  there is one, names the path or the first name below it
  that resists.
-/
def removeAll
    (t : Tree)
    (cwd : Location)
    (text : String) : Option Fault × Tree :=
  match t.locate cwd text with
  | .error r => (some (.ofRefusal r text), t)
  | .ok l =>
      match t.at? l with
      | none => (some (.ofRefusal .missing text), t)
      | some node =>
          if !grants node.mode .read then
            (some (.ofRefusal .denied text), t)
          else if !node.isDirectory then
            (some (.coded Refusal.notDirectory.code
              Refusal.notDirectory.reason
              (some (.path text))), t)
          else
            match (t.below l).find? t.resists with
            | some n =>
                (some (.ofRefusal .denied
                  (n.1.getLast?.getD "")), t)
            | none =>
                match t.checkParent l with
                | .error r =>
                    (some (.ofRefusal r text), t.cutBelow l)
                | .ok () => (none, t.cut l)

end Tree

end Files

end LocalCert
