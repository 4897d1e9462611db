/-!
# Where and why a text is no JSON

A reader that stops reports a `Fault`, the rule that was broken, together with the number of bytes
that follow the place it stopped at (`Failure.left`).  Counting from the end lets a reader work on
the text that is left without carrying a position; `Failure.position` turns the count into a line
and a column once the whole text is known.
-/

namespace SchemaEnums.Json

/-- The ways in which a text fails to be a document. -/
inductive Fault where
  | endInValue
  | endInList
  | endInObject
  | endInString
  | expectedValue
  | expectedKeyword
  | expectedColon
  | expectedCommaOrBracket
  | expectedCommaOrBrace
  | trailingComma
  | keyNotString
  | trailingCharacters
  | invalidNumber
  | numberOutOfRange
  | controlCharacter
  | invalidEscape
  | loneSurrogate
  | unfinishedSurrogatePair
  | tooDeep
deriving DecidableEq, Repr

/-- The wording of a fault. -/
def Fault.message : Fault → String
  | endInValue => "EOF while parsing a value"
  | endInList => "EOF while parsing a list"
  | endInObject => "EOF while parsing an object"
  | endInString => "EOF while parsing a string"
  | expectedValue => "expected value"
  | expectedKeyword => "expected ident"
  | expectedColon => "expected `:`"
  | expectedCommaOrBracket => "expected `,` or `]`"
  | expectedCommaOrBrace => "expected `,` or `".push '}' ++ "`"
  | trailingComma => "trailing comma"
  | keyNotString => "key must be a string"
  | trailingCharacters => "trailing characters"
  | invalidNumber => "invalid number"
  | numberOutOfRange => "number out of range"
  | controlCharacter => "control character (\\u0000-\\u001F) found while parsing a string"
  | invalidEscape => "invalid escape"
  | loneSurrogate => "lone leading surrogate in hex escape"
  | unfinishedSurrogatePair => "unexpected end of hex escape"
  | tooDeep => "recursion limit exceeded"

/-- A fault and the number of bytes that follow the place it is reported at. -/
structure Failure where
  fault : Fault
  left : Nat
deriving DecidableEq, Repr

/-- The number of bytes of a text in UTF-8. -/
def byteCount : List Char → Nat
  | [] => 0
  | c :: rest => c.utf8Size + byteCount rest

/-- A fault reported in front of `rest`. -/
def Failure.before (fault : Fault) (rest : List Char) : Failure :=
  ⟨fault, byteCount rest⟩

/-- A fault reported `count` bytes into `rest`, or at its end if there are fewer. -/
def Failure.into (fault : Fault) (count : Nat) (rest : List Char) : Failure :=
  ⟨fault, byteCount rest - count⟩

/-- A line, counted from one, and the number of bytes between its start and a place in it. -/
structure Position where
  line : Nat
  column : Nat
deriving DecidableEq, Repr

/-- The position behind a text, given as its bytes. -/
def Position.behind (bytes : List UInt8) : Position where
  line := bytes.count 10 + 1
  column := (bytes.reverse.takeWhile (· ≠ 10)).length

/-- Where in `text` a failure is reported. -/
def Failure.position (failure : Failure) (text : String) : Position :=
  let bytes := text.toUTF8.data.toList
  .behind (bytes.take (bytes.length - failure.left))

/-- A text that is no document: what is wrong with it, and where. -/
structure SyntaxError where
  fault : Fault
  position : Position
deriving DecidableEq, Repr

/-- The failure of reading `text`, placed in it. -/
def Failure.locate (failure : Failure) (text : String) : SyntaxError :=
  ⟨failure.fault, failure.position text⟩

/-- The message of a syntax error, with its place. -/
def SyntaxError.message (error : SyntaxError) : String :=
  error.fault.message ++ " at line " ++ toString error.position.line ++ " column "
    ++ toString error.position.column

end SchemaEnums.Json
