/-!
# Folders

A path leads from a folder to one of its files, step by step: a step of a single dot
stays, a step of two dots goes to the folder around, and a name goes to what has that
name.  Only the files of one folder are known; the folders around it have no entries
that could be named, and a path that begins with a slash starts at the outermost.
A file has no inside, so nothing may follow its name, not even a slash.
-/

namespace GraphWarden

/-- A folder with named files. -/
structure Folder where
  files : List (String × String)

namespace Folder

/-- Why a path leads to no text. -/
inductive Fault where
  | noEntry
  | notFolder
  | isFolder
  | nameTooLong
deriving DecidableEq, Repr

/-- The wording of a fault. -/
def Fault.message : Fault → String
  | .noEntry => "No such file or directory (os error 2)"
  | .notFolder => "Not a directory (os error 20)"
  | .isFolder => "Is a directory (os error 21)"
  | .nameTooLong => "File name too long (os error 36)"

/-- Where a path has led so far. -/
inductive Spot where
  /-- The folder itself. -/
  | here
  /-- A folder around it. -/
  | outside
  | file (text : String)

/-- How many bytes a name may take, and how many a path. -/
def nameLimit : Nat := 255

def pathLimit : Nat := 4095

/-- One step of a path. -/
def step (d : Folder) (spot : Spot) (name : String) : Except Fault Spot :=
  match spot with
  | .file _ => .error .notFolder
  | .outside =>
    if name = "" || name = "." || name = ".." then .ok .outside
    else if nameLimit < name.utf8ByteSize then .error .nameTooLong
    else .error .noEntry
  | .here =>
    if name = "" || name = "." then .ok .here
    else if name = ".." then .ok .outside
    else if nameLimit < name.utf8ByteSize then .error .nameTooLong
    else
      match d.files.find? fun f => f.1 == name with
      | some (_, text) => .ok (.file text)
      | none => .error .noEntry

/-- The text that a path leads to. -/
def read (d : Folder) (path : String) : Except Fault String := do
  if path.isEmpty then throw .noEntry
  if pathLimit < path.utf8ByteSize then throw .nameTooLong
  let start : Spot := if path.startsWith "/" then .outside else .here
  match ← (path.splitOn "/").foldlM d.step start with
  | .file text => return text
  | _ => throw .isFolder

end Folder

end GraphWarden
