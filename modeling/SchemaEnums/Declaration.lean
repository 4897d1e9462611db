import SchemaEnums.Json.StringLiteral
import SchemaEnums.Path

/-!
# Enum declarations

A declaration is written as

    export enum NAME {
    "A" = "A",
    "B" = "B"
    }

with a blank line behind it.  The members are string literals; the name stands there as it is,
even if it is no identifier of the target language.
-/

namespace SchemaEnums

/-- An enum to be declared. -/
structure Declaration where
  /-- The property that owns the enum, or the name of the file whose whole content it is. -/
  name : String
  /-- The members, in the order of the schema. -/
  members : List String
  /-- The schema file the enum stands in. -/
  source : Path
deriving DecidableEq, Repr

namespace Declaration

/-- The line of a member, without its end. -/
def memberChars (member : String) : List Char :=
  StringLiteral.chars member.toList ++ [' ', '=', ' '] ++ StringLiteral.chars member.toList

/-- The text of the declaration of an enum. -/
def enumChars (name : String) (members : List String) : List Char :=
  "export enum ".toList ++ name.toList ++ [' ', '{', '\n']
    ++ [',', '\n'].intercalate (members.map memberChars)
    ++ ['\n', '}', '\n', '\n']

/-- The text of a declaration. -/
def chars (declaration : Declaration) : List Char :=
  enumChars declaration.name declaration.members

/-- The text of the declaration of an enum. -/
def renderEnum (name : String) (members : List String) : String :=
  .ofList (enumChars name members)

/-- The text of several declarations, one behind the other. -/
def render (declarations : List Declaration) : String :=
  .ofList (declarations.flatMap chars)

end Declaration

end SchemaEnums
