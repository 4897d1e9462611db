import SchemaEnums.Json.Basic
import SchemaEnums.Json.StringLiteral
import SchemaEnums.Decimal.Shortest

/-!
# Writing a value

The compact form of a value: no blanks, members in their order, strings as `StringLiteral` spells
them, floats with the fewest digits that read back.
-/

namespace SchemaEnums.Json

/-- A float is written with an exponent if its leading digit stands for less than `10 ^ -5` or for
`10 ^ 16` or more; a positive exponent has its sign. -/
def floatLayout : Decimal.Layout where
  leastPlain := -5
  greatestPlain := 15
  positiveExponent := ['+']

/-- The characters of an integer. -/
def Integer.chars (i : Integer) : List Char :=
  if i.val < 0 then '-' :: Nat.toDigits 10 i.val.natAbs else Nat.toDigits 10 i.val.natAbs

/-- The characters of a finite float; zero has a sign too. -/
def floatChars (x : Float) : List Char :=
  let magnitude := if x == 0 then ['0', '.', '0'] else floatLayout.chars (Decimal.shortest x)
  if (Decimal.Binary.ofFloat x).negative then '-' :: magnitude else magnitude

/-- The characters of a number. -/
def Number.chars : Number → List Char
  | integer value => value.chars
  | float value => floatChars value

mutual

/-- The characters of a value. -/
def chars : Json → List Char
  | null => ['n', 'u', 'l', 'l']
  | bool true => ['t', 'r', 'u', 'e']
  | bool false => ['f', 'a', 'l', 's', 'e']
  | number value => value.chars
  | string text => StringLiteral.chars text.toList
  | array elements => '[' :: elementChars elements
  | object members => '{' :: memberChars members

/-- The characters of an array behind its opening bracket. -/
def elementChars : List Json → List Char
  | [] => [']']
  | [last] => last.chars ++ [']']
  | element :: rest => element.chars ++ ',' :: elementChars rest

/-- The characters of an object behind its opening brace. -/
def memberChars : List (String × Json) → List Char
  | [] => ['}']
  | [(key, value)] => StringLiteral.chars key.toList ++ ':' :: value.chars ++ ['}']
  | (key, value) :: rest =>
    StringLiteral.chars key.toList ++ ':' :: value.chars ++ ',' :: memberChars rest

end

/-- The compact text of a value. -/
def print (value : Json) : String :=
  .ofList value.chars

end SchemaEnums.Json
