import LocalCert.Text.Quoted

/-
  Faults of the file system and of starting a tool: a number
  with its reason and perhaps the file concerned, or a plain
  description.

  Key definitions include:
    * `Files.Refusal`
    * `Files.Fault`
    * `Files.Fault.message`
    * `Files.Fault.category`
-/

------------------------------------------------------------
-- Refusals
------------------------------------------------------------

namespace LocalCert

namespace Files

/- Why an operation on a file tree is refused. -/
inductive Refusal where
  | missing
  | denied
  | alreadyExists
  | notDirectory
  | isDirectory
  | nameTooLong
  deriving DecidableEq, Repr

namespace Refusal

/- The number of a refusal. -/
def code : Refusal → Int
  | .missing => 2
  | .denied => 13
  | .alreadyExists => 17
  | .notDirectory => 20
  | .isDirectory => 21
  | .nameTooLong => 36

/- The words for a refusal. -/
def reason : Refusal → String
  | .missing => "No such file or directory"
  | .denied => "Permission denied"
  | .alreadyExists => "File exists"
  | .notDirectory => "Not a directory"
  | .isDirectory => "Is a directory"
  | .nameTooLong => "File name too long"

end Refusal

------------------------------------------------------------
-- Faults
------------------------------------------------------------

/- A file in a message: its bare name, or its path. -/
inductive FileName where
  | bare (name : String)
  | path (text : String)
  deriving DecidableEq, Repr

/- The file as the message shows it. -/
def FileName.shown : FileName → String
  | .bare name => Text.quoted name
  | .path text => "PosixPath(" ++ Text.quoted text ++ ")"

/- What went wrong outside the program. -/
inductive Fault where
  | coded (code : Int) (reason : String)
      (file : Option FileName)
  | described (text : String)
  deriving DecidableEq, Repr

/- The categories of faults. -/
inductive Category where
  | permission
  | missing
  | alreadyExists
  | notDirectory
  | isDirectory
  | other
  deriving DecidableEq, Repr

namespace Fault

/- A refusal that concerns a file by its name. -/
def ofRefusal
    (r : Refusal)
    (name : String) : Fault :=
  .coded r.code r.reason (some (.bare name))

/- The message of a fault. -/
def message : Fault → String
  | .coded code reason none =>
      "[Errno " ++ Text.intText code ++ "] " ++ reason
  | .coded code reason (some file) =>
      "[Errno " ++ Text.intText code ++ "] " ++ reason ++ ": " ++
        file.shown
  | .described text => text

/- The category of a number. -/
def categoryOfCode
    (code : Int) : Category :=
  if code == 1 || code == 13 then
    .permission
  else if code == 2 then
    .missing
  else if code == 17 then
    .alreadyExists
  else if code == 20 then
    .notDirectory
  else if code == 21 then
    .isDirectory
  else
    .other

/- The category of a fault. -/
def category : Fault → Category
  | .coded code _ _ => categoryOfCode code
  | .described _ => .other

end Fault

end Files

end LocalCert
