/-!
# Paths

A path is the text it is written as: nothing is normalised.  What it means is read off its
segments, the pieces between slashes.

* `Path.components`: the segments without the empty ones and the dots that change nothing.
* `Path.join`: the path of an entry of a directory.
* `Path.fileName?`, `Path.schemaName`: the last component, and the name that a schema file gives
  to an enum that is its whole content.
-/

namespace SchemaEnums

/-- Puts a name behind a directory, with a separator between them unless the directory is empty or
ends with one. -/
def joinWith {α : Type} [DecidableEq α] (separator : α) (dir name : List α) : List α :=
  if dir.getLast?.all (· = separator) then dir ++ name else dir ++ separator :: name

/-- The front of a list that ends with `ending`. -/
def dropEnding? {α : Type} [DecidableEq α] (ending text : List α) : Option (List α) :=
  if ending.isSuffixOf text then some (text.take (text.length - ending.length)) else none

/-- What the name of a schema file ends with. -/
def schemaEnding : String := ".json"

/-- A path, as it is written. -/
structure Path where
  text : String
deriving DecidableEq, Repr

namespace Path

/-- The bytes of a path. -/
def bytes (path : Path) : List UInt8 :=
  path.text.toByteArray.data.toList

/-- The path written with the given bytes, if they are valid UTF-8. -/
def ofBytes? (bytes : List UInt8) : Option Path :=
  (String.fromUTF8? ⟨bytes.toArray⟩).map Path.mk

/-- The path of the entry `name` of a directory. -/
def join (dir : Path) (name : String) : Path :=
  ⟨.ofList (joinWith '/' dir.text.toList name.toList)⟩

/-- A step that a path takes. -/
inductive Component where
  | root
  | current
  | parent
  | named (name : List Char)
deriving DecidableEq, Repr

/-- The step of a segment behind the first one: empty segments and single dots are none. -/
def Component.ofSegment? (segment : List Char) : Option Component :=
  if segment = [] ∨ segment = ['.'] then none
  else if segment = ['.', '.'] then some .parent
  else some (.named segment)

/-- The steps of a path.  A dot is a step only where a path starts with it. -/
def components (path : Path) : List Component :=
  match path.text.toList.splitOn '/' with
  | [] | [[]] => []
  | [] :: rest => .root :: rest.filterMap Component.ofSegment?
  | ['.'] :: rest => .current :: rest.filterMap Component.ofSegment?
  | segments => segments.filterMap Component.ofSegment?

/-- The last step of a path, if it is a name. -/
def fileName? (path : Path) : Option String :=
  match path.components.getLast? with
  | some (.named name) => some (.ofList name)
  | _ => none

/-- Whether a text ends like the name of a schema file. -/
def endsLikeSchema (text : List Char) : Bool :=
  schemaEnding.toList.isSuffixOf text

/-- The name of an enum that is the whole content of a schema file: the file's name without its
ending, or all of it if nothing else would be left. -/
def schemaName (path : Path) : String :=
  let name := path.fileName?.getD path.text
  match dropEnding? schemaEnding.toList name.toList with
  | some (c :: stem) => .ofList (c :: stem)
  | _ => name

end Path

end SchemaEnums
