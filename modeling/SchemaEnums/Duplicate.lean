import SchemaEnums.Declaration

/-!
# Repeated names

Which names several declarations share (`Duplicate.ofDeclarations`), and in which files: names in
the order of their first declarations, files in the order of the declarations.
-/

namespace SchemaEnums

/-- A name that more than one declaration has. -/
structure Duplicate where
  name : String
  /-- The file of each declaration of the name. -/
  sources : List Path
deriving DecidableEq, Repr

namespace Duplicate

/-- The names of declarations, each once, in the order of their first declarations. -/
def names : List Declaration → List String
  | [] => []
  | declaration :: rest =>
    declaration.name :: (names rest).filter (· ≠ declaration.name)

/-- A name with the files of its declarations. -/
def ofName (declarations : List Declaration) (name : String) : Duplicate :=
  ⟨name, (declarations.filter (·.name = name)).map (·.source)⟩

/-- The names that more than one declaration has. -/
def ofDeclarations (declarations : List Declaration) : List Duplicate :=
  ((names declarations).map (ofName declarations)).filter (1 < ·.sources.length)

/-- The files of a repeated name, as one text. -/
def shownSources (duplicate : Duplicate) : String :=
  ", ".intercalate (duplicate.sources.map (·.text))

/-- A repeated name with its files, as one text. -/
def shown (duplicate : Duplicate) : String :=
  "`" ++ duplicate.name ++ "` (in " ++ duplicate.shownSources ++ ")"

/-- The message for repeated names that are not allowed. -/
def message (duplicates : List Duplicate) : String :=
  "enum names must be unique, but found duplicates: " ++ ", ".intercalate (duplicates.map shown)

end Duplicate

end SchemaEnums
