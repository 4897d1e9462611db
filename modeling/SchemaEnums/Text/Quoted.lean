import SchemaEnums.Text.Unprintable

/-!
# Text between quotes

A log shows some texts between double quotes.  Quotes and backslashes are escaped, and so is every
character that would not show by itself: four with a letter, the others by their code point.
-/

namespace SchemaEnums.Quoted

/-- A character by its code point. -/
def codePoint (c : Char) : List Char :=
  '\\' :: 'u' :: '{' :: Nat.toDigits 16 c.toNat ++ ['}']

/-- How one character is written. -/
def escape (c : Char) : List Char :=
  match c with
  | '\x00' => ['\\', '0']
  | '\t' => ['\\', 't']
  | '\r' => ['\\', 'r']
  | '\n' => ['\\', 'n']
  | '\\' => ['\\', '\\']
  | '"' => ['\\', '"']
  | c => if Unprintable.contains c then codePoint c else [c]

/-- A text between quotes. -/
def quote (text : String) : String :=
  .ofList ('"' :: text.toList.flatMap escape ++ ['"'])

end SchemaEnums.Quoted
