import LocalCert.CommandLine.Run

/-
  The program.  It carries out its command line in a bare
  world: an empty file tree in which no tool is installed.

  Key definitions include:
    * `Program.bareWorld`
    * `main`
-/

------------------------------------------------------------
-- The Program
------------------------------------------------------------

namespace LocalCert

namespace Program

/- No more processes than this are started. -/
def processes : Nat := 4

/- A world without files and without tools. -/
def bareWorld : World where
  files := ⟨[(["tmp"], .directory 0o777)]⟩
  cwd := []
  tempDir := "/tmp"
  script :=
    List.replicate processes { ending := .missing }

/- The lines of the journal. -/
def journalLines
    (w : World) : List String :=
  w.journal.filterMap (fun e =>
    (e.record (Double.ofInt 0)).line?.toOption)

/- The exit status of the program. -/
def status : CommandLine.Result → Nat
  | .finished n => n
  | .stopped s => s.status
  | .failed _ => 1

end Program

end LocalCert

open LocalCert

/- Carry out the command line. -/
def main
    (arguments : List String) : IO UInt32 := do
  let (result, w) :=
    CommandLine.run arguments Program.bareWorld
  IO.print result.stdout
  IO.eprint result.stderr
  for line in Program.journalLines w do
    IO.eprintln line
  return UInt32.ofNat (Program.status result)
