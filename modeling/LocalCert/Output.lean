import LocalCert.World

/-
  The output directory, in which the issued pair is left.
  Only the owner may read the key.

  Key definitions include:
    * `Output.keyPath`
    * `Output.certPath`
    * `Output.write`
-/

------------------------------------------------------------
-- Paths
------------------------------------------------------------

namespace LocalCert

namespace Output

/- The mode of the key file. -/
def keyMode : Nat := 0o600

/- The path of the key. -/
def keyPath
    (dir : Path) : Path :=
  dir.child "key.pem"

/- The path of the certificate. -/
def certPath
    (dir : Path) : Path :=
  dir.child "cert.pem"

------------------------------------------------------------
-- Writing
------------------------------------------------------------

/-
  Write the key.  A file that is there already is emptied,
  and has the mode of the key file before it is filled.
-/
def writeKey
    (t : Files.Tree)
    (cwd : Files.Location)
    (path key : String) : Except Files.Refusal Files.Tree := do
  let (place, t) ← t.openForWriting cwd keyMode path
  let t := t.setMode place keyMode
  return t.fill place (Text.Utf8.encodeText key)

/- Do one step of writing to a path. -/
def onTree
    (path : String)
    (step :
      Files.Tree → Files.Location →
        Except Files.Refusal Files.Tree) : Act Unit :=
  Act.of (fun w =>
    match step w.files w.cwd with
    | .ok files => (.ok (), { w with files := files })
    | .error r => (.error (.fault (.ofRefusal r path)), w))

/- Make the output directory and those above it. -/
def makeDirectory
    (dir : Path) : Act Unit :=
  Act.of (fun w =>
    if dir.text.toList.contains '\x00' then
      (.error .nulInPath, w)
    else
      match w.files.makeDirectories w.cwd dir with
      | (none, files) => (.ok (), { w with files := files })
      | (some f, files) =>
          (.error (.fault f), { w with files := files }))

/- Write the key, then the certificate. -/
def write
    (dir : Path)
    (m : Material) : Act Unit := do
  makeDirectory dir
  let key := (keyPath dir).text
  onTree key (fun t cwd => writeKey t cwd key m.key)
  let cert := (certPath dir).text
  onTree cert (fun t cwd =>
    t.writeFile cwd cert (Text.Utf8.encodeText m.cert))

end Output

end LocalCert
