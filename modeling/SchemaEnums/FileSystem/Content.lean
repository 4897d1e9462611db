import SchemaEnums.FileSystem.Resolution
import SchemaEnums.Text.Lossy

/-!
# What files and directories hold

Reading a file as text, and listing the names of a directory.
-/

namespace SchemaEnums

/-- Why a file cannot be read as text. -/
inductive ReadFault where
  /-- The path leads nowhere, or to what the system refuses to open. -/
  | unopened (error : OsError)
  /-- The path leads to a directory. -/
  | directory
  /-- The bytes are no text. -/
  | notUtf8
deriving DecidableEq, Repr

namespace FileSystem

/-- The text of the file a path leads to. -/
def readText (fs : FileSystem) (path : Path) : Except ReadFault String :=
  match fs.stat path with
  | .error error => .error (.unopened error)
  | .ok (.closedFile refusal) => .error (.unopened refusal)
  | .ok (.closedDirectory refusal) => .error (.unopened refusal)
  | .ok (.file content) =>
    match String.fromUTF8? content with
    | some text => .ok text
    | none => .error .notUtf8
  | .ok _ => .error .directory

/-- The entries of the directory a path leads to. -/
def entriesOf? (fs : FileSystem) (path : Path) : Option Entries :=
  match fs.stat path with
  | .ok (.directory entries) => some entries
  | _ => none

/-- The names in the directory a path leads to, as text and sorted. -/
def shownNames? (fs : FileSystem) (path : Path) : Option (List String) :=
  (fs.entriesOf? path).map fun entries =>
    (entries.map fun e => Lossy.decode e.1.val).mergeSort

end FileSystem

end SchemaEnums
