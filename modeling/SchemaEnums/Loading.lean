import SchemaEnums.Event
import SchemaEnums.Json.Reader

/-!
# From schema files to declarations

Each file is read, parsed and searched for enums (`Loading.file`).  All files are processed, but
when several of them fail, only the first failure counts (`Loading.files`).
-/

namespace SchemaEnums

/-- Why a file holds no document. -/
inductive LoadError where
  /-- The file cannot be read as text. -/
  | unreadable (path : Path) (fault : ReadFault)
  /-- The text is no JSON. -/
  | notJson (path : Path) (error : Json.SyntaxError)
deriving DecidableEq, Repr

/-- Why the enums of a file cannot be declared. -/
inductive FileError where
  | load (error : LoadError)
  /-- The document is no schema. -/
  | invalidSchema (path : Path) (error : SchemaError)

namespace FileSystem

/-- The document in the file a path leads to. -/
def loadJson (fs : FileSystem) (path : Path) : Except LoadError Json :=
  match fs.readText path with
  | .error fault => .error (.unreadable path fault)
  | .ok text => (Json.parse text).mapError (.notJson path)

end FileSystem

/-- What the processing of files yields, and what a log shows of it. -/
structure Loading where
  result : Except FileError (List Declaration)
  events : List Event

namespace Loading

/-- The declarations of a document that has been loaded from a file. -/
def ofDocument (path : Path) (document : Json) : Loading :=
  let extraction := Extraction.ofDocument document path.schemaName
  let events := extraction.found.map (Event.found · path)
  match extraction.declarations path with
  | .error error => ⟨.error (.invalidSchema path error), events⟩
  | .ok declarations => ⟨.ok declarations, events ++ [.processed path declarations.length]⟩

/-- The declarations of a file. -/
def file (fs : FileSystem) (path : Path) : Loading :=
  match fs.loadJson path with
  | .error error => ⟨.error (.load error), []⟩
  | .ok document => ofDocument path document

/-- Two results in a row: the declarations of both, or the first error. -/
def append (first second : Loading) : Loading where
  result :=
    match first.result, second.result with
    | .error error, _ => .error error
    | .ok _, .error error => .error error
    | .ok before, .ok behind => .ok (before ++ behind)
  events := first.events ++ second.events

/-- The declarations of several files, in the order of the files. -/
def files (fs : FileSystem) (paths : List Path) : Loading :=
  paths.foldr (fun path rest => (file fs path).append rest) ⟨.ok [], []⟩

end Loading

end SchemaEnums
