/-!
# Pointers into a document

A pointer says which properties lead from the root of a document to a schema: `#`, and for each
property the tokens `properties` and its name, with a slash in front of each.  In a name `~` is
written `~0` and `/` is written `~1`, so a slash always separates tokens.
-/

namespace SchemaEnums

/-- A pointer, in the form of a URI fragment. -/
structure Pointer where
  text : String
deriving DecidableEq, Repr

namespace Pointer

/-- The pointer to the root of a document. -/
def root : Pointer := ⟨"#"⟩

/-- How a token spells one character. -/
def escape (c : Char) : List Char :=
  if c = '~' then ['~', '0'] else if c = '/' then ['~', '1'] else [c]

/-- The pointer to the schema of a property of the object schema at `parent`. -/
def property (parent : Pointer) (name : String) : Pointer :=
  ⟨parent.text ++ "/properties/" ++ .ofList (name.toList.flatMap escape)⟩

end Pointer

end SchemaEnums
