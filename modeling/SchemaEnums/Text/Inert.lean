import SchemaEnums.Text.Quoted

/-!
# Text that a terminal only shows

A message of a log may hold names from outside.  The characters with which such a name could move
the cursor, change colours or ring the bell are written out; line feeds, tabs and all others stay.
-/

namespace SchemaEnums.Inert

/-- How one character is written.  Those from U+0080 to U+009F are control characters too. -/
def escape (c : Char) : List Char :=
  match c with
  | '\x07' => ['\\', 'x', '0', '7']
  | '\x08' => ['\\', 'x', '0', '8']
  | '\x0c' => ['\\', 'x', '0', 'c']
  | '\x1b' => ['\\', 'x', '1', 'b']
  | '\x7f' => ['\\', 'x', '7', 'f']
  | c => if 0x80 ≤ c.toNat && c.toNat ≤ 0x9f then Quoted.codePoint c else [c]

/-- A text that can be written to a terminal. -/
def write (text : String) : String :=
  .ofList (text.toList.flatMap escape)

end SchemaEnums.Inert
