import LocalCert.Files.Fault
import LocalCert.Files.Path
import LocalCert.Text.Utf8

/-
  A file tree: directories and files with their modes, by
  location, and the way from a path text to a location.

  Key definitions include:
    * `Files.Node`
    * `Files.Tree`
    * `Files.Tree.at?`
    * `Files.Tree.put`
    * `Files.Tree.cut`
    * `Files.Tree.locate`
-/

------------------------------------------------------------
-- Trees
------------------------------------------------------------

namespace LocalCert

namespace Files

/- The names from the root directory down to a place. -/
abbrev Location : Type :=
  List String

/- What stands at a location. -/
inductive Node where
  | directory (mode : Nat)
  | file (mode : Nat) (bytes : List UInt8)
  deriving DecidableEq, Repr

/- The permission bits of a node. -/
def Node.mode : Node → Nat
  | .directory mode => mode
  | .file mode _ => mode

/- The node with other permission bits. -/
def Node.withMode
    (mode : Nat) : Node → Node
  | .directory _ => .directory mode
  | .file _ bytes => .file mode bytes

/- Whether a node is a directory. -/
def Node.isDirectory : Node → Bool
  | .directory _ => true
  | .file _ _ => false

/- The permissions of the owner, one bit each. -/
inductive Permission where
  | read
  | write
  | enter
  deriving DecidableEq, Repr

/- Whether permission bits grant the owner something. -/
def grants
    (mode : Nat) : Permission → Bool
  | .read => mode / 0o400 % 2 == 1
  | .write => mode / 0o200 % 2 == 1
  | .enter => mode / 0o100 % 2 == 1

/- A file tree by its nodes below the root directory. -/
structure Tree where
  nodes : List (Location × Node)
  deriving DecidableEq, Repr

namespace Tree

/- The tree of the root directory alone. -/
def empty : Tree :=
  ⟨[]⟩

/- The node at a location; the root is a directory. -/
def at?
    (t : Tree)
    (l : Location) : Option Node :=
  if l.isEmpty then
    some (.directory 0o755)
  else
    (t.nodes.find? (fun n => n.1 == l)).map Prod.snd

/- Whether something stands at a location. -/
def occupied
    (t : Tree)
    (l : Location) : Bool :=
  t.nodes.any (fun n => n.1 == l)

/- Put a node in the place of the old one, or at the end. -/
def put
    (t : Tree)
    (l : Location)
    (node : Node) : Tree :=
  if t.occupied l then
    ⟨t.nodes.map
      (fun n => if n.1 == l then (l, node) else n)⟩
  else
    ⟨t.nodes ++ [(l, node)]⟩

/- Take away a location and everything below it. -/
def cut
    (t : Tree)
    (l : Location) : Tree :=
  ⟨t.nodes.filter (fun n => !l.isPrefixOf n.1)⟩

/- Take away everything below a location. -/
def cutBelow
    (t : Tree)
    (l : Location) : Tree :=
  ⟨t.nodes.filter
    (fun n => n.1 == l || !l.isPrefixOf n.1)⟩

/- The nodes strictly below a location. -/
def below
    (t : Tree)
    (l : Location) : List (Location × Node) :=
  t.nodes.filter (fun n => l.isPrefixOf n.1 && n.1 != l)

------------------------------------------------------------
-- Walking
------------------------------------------------------------

/- The greatest number of bytes in a name. -/
def maxNameBytes : Nat := 255

/- The least number of bytes that is too many for a path. -/
def pathBytesLimit : Nat := 4096

/- The number of bytes of a name. -/
def byteLength
    (s : String) : Nat :=
  (Text.Utf8.encodeText s).length

/- Whether the owner may use a directory in a way. -/
def check
    (t : Tree)
    (p : Permission)
    (l : Location) : Except Refusal Unit :=
  match t.at? l with
  | none => .error .missing
  | some (.file _ _) => .error .notDirectory
  | some (.directory mode) =>
      if grants mode p then .ok () else .error .denied

/- Walk down from a location; the last name may be free. -/
def walk
    (t : Tree)
    (here : Location) :
    List String → Except Refusal Location
  | [] => .ok here
  | p :: ps =>
      match t.check .enter here with
      | .error r => .error r
      | .ok () =>
          if p == ".." then
            t.walk here.dropLast ps
          else if maxNameBytes < byteLength p then
            .error .nameTooLong
          else
            t.walk (here ++ [p]) ps

/- The location that a path text means from a directory. -/
def locate
    (t : Tree)
    (cwd : Location)
    (text : String) : Except Refusal Location :=
  let path := Path.ofText text
  if text.isEmpty then
    .error .missing
  else if pathBytesLimit ≤ byteLength text then
    .error .nameTooLong
  else
    t.walk (if path.root == .relative then cwd else [])
      path.parts

end Tree

end Files

end LocalCert
