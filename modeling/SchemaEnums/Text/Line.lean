/-!
# Lines of a text

A line ends at a line feed; a carriage return in front of it belongs to the end.
-/

namespace SchemaEnums.Line

/-- The characters of the first line. -/
def takeFirst : List Char → List Char
  | [] => []
  | '\n' :: _ => []
  | '\r' :: '\n' :: _ => []
  | c :: rest => c :: takeFirst rest

/-- The first line of a text. -/
def first (text : String) : String :=
  .ofList (takeFirst text.toList)

end SchemaEnums.Line
