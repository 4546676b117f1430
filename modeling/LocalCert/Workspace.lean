import LocalCert.World

/-
  Workspaces: private directories that last as long as the
  attempt they are made for, and the reading of the issued
  pair from one.

  Key definitions include:
    * `Workspace.create`
    * `Workspace.close`
    * `Workspace.within`
    * `Workspace.readMaterial`
-/

------------------------------------------------------------
-- Opening
------------------------------------------------------------

namespace LocalCert

namespace Workspace

/- The number of names that are tried. -/
def maxTries : Nat := 238328

/- The mode of a workspace. -/
def privateMode : Nat := 0o700

/- The varying part of the name that is tried as the n-th. -/
def uniquePart
    (n : Nat) : String :=
  "ws" ++ String.ofList (Text.paddedDecimal 6 n)

/- Whether a path text holds the character zero. -/
def hasNul
    (text : String) : Bool :=
  text.toList.contains '\x00'

/- The fault when all names are taken. -/
def noName : Files.Fault :=
  .coded Files.Refusal.alreadyExists.code
    "No usable temporary directory name found" none

/- Make the directory with the first name that is free. -/
def tryNames
    (directory start : String) :
    Nat → World → Except Failure Path × World
  | 0, w => (.error (.workspaceNotCreated noName), w)
  | tries + 1, w =>
      let n := w.namesTried + 1
      let text := Path.joinText directory (start ++ uniquePart n)
      let w := { w with namesTried := n }
      if hasNul text then
        (.error .nulInPath, w)
      else
        match w.files.makeDirectory w.cwd privateMode text with
        | .ok files =>
            (.ok (Path.ofText text), { w with files := files })
        | .error .alreadyExists =>
            tryNames directory start tries w
        | .error r =>
            (.error
              (.workspaceNotCreated (.ofRefusal r text)), w)

/- The directory in which a workspace is made. -/
def directoryOf
    (w : World)
    (parent : Option Path) : String :=
  match parent with
  | some path => path.text
  | none => w.tempDir

/- Make a workspace whose name starts with the given text. -/
def create
    (start : String)
    (parent : Option Path) : Act Path := do
  let path ← Act.of (fun w =>
    tryNames (directoryOf w parent) start maxTries w)
  Act.report (.workspaceCreated path.text)
  return path

------------------------------------------------------------
-- Closing
------------------------------------------------------------

/- Note and report the fault that a removal met. -/
def noteFault
    (path : Path)
    (f : Files.Fault)
    (w : World) : World :=
  World.report { w with faultsMet := w.faultsMet ++ [f] }
    (.workspaceNotRemoved path.text f)

/-
  Remove a workspace with everything in it.  A fault is
  noted and reported, and changes nothing else.
-/
def close
    (path : Path)
    (w : World) : World :=
  let fault := w.nextRemovalFault
  let w := { w with removalsTried := w.removalsTried + 1 }
  match fault with
  | some words => noteFault path (.described words) w
  | none =>
      match w.files.removeAll w.cwd path.text with
      | (none, files) => { w with files := files }
      | (some f, files) =>
          noteFault path f { w with files := files }

/- Do something in a workspace of its own. -/
def within
    {α : Type}
    (start : String)
    (parent : Option Path)
    (body : Path → Act α) : Act α := do
  let path ← Workspace.create start parent
  Act.ensuring (body path) (close path)

------------------------------------------------------------
-- Reading The Issued Pair
------------------------------------------------------------

/- The text of a file, with one kind of line end. -/
def readText
    (w : World)
    (path : String) : Except Failure String :=
  if hasNul path then
    .error .nulInPath
  else
    match w.files.read w.cwd path with
    | .error r =>
        .error (.materialUnreadable
          (.fault (.ofRefusal r path)))
    | .ok bytes =>
        match Text.Utf8.decode bytes with
        | .error e =>
            .error (.materialUnreadable (.undecodable e))
        | .ok cs =>
            .ok (String.ofList (Text.unifyNewlines cs))

/- Read the key, then the certificate. -/
def readMaterial
    (keyPath certPath : String) : Act Material :=
  Act.of (fun w =>
    match readText w keyPath with
    | .error f => (.error f, w)
    | .ok key =>
        match readText w certPath with
        | .error f => (.error f, w)
        | .ok cert => (.ok ⟨key, cert⟩, w))

end Workspace

end LocalCert
