/-!
# String literals

A literal stands between double quotes.  Only the quote, the backslash and the control characters
below U+0020 are escaped: seven of them with a letter, the others with four hexadecimal digits in
lower case.  So a literal never holds a raw line feed, and its first unescaped quote ends it.

The same literals spell the strings of a JSON document and the members of a generated enum.
-/

namespace SchemaEnums.StringLiteral

/-- How a literal spells one character. -/
def escape (c : Char) : List Char :=
  match c with
  | '"' => ['\\', '"']
  | '\\' => ['\\', '\\']
  | '\x08' => ['\\', 'b']
  | '\x0c' => ['\\', 'f']
  | '\n' => ['\\', 'n']
  | '\r' => ['\\', 'r']
  | '\t' => ['\\', 't']
  | c =>
    if c.toNat < 0x20 then
      ['\\', 'u', '0', '0', Nat.digitChar (c.toNat / 16), Nat.digitChar (c.toNat % 16)]
    else [c]

/-- What stands between the quotes. -/
def body (text : List Char) : List Char :=
  text.flatMap escape

/-- The characters of the literal of a string. -/
def chars (text : List Char) : List Char :=
  '"' :: (body text ++ ['"'])

end SchemaEnums.StringLiteral
