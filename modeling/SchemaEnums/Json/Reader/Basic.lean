import SchemaEnums.Json.Fault

/-!
# Readers

What a reader returns: a value and the text left behind it, which is strictly shorter than the text
it started from.  Loops over a reader end because of that.
-/

namespace SchemaEnums.Json

/-- A value read from the front of `text`, and the strictly shorter text that is left. -/
structure Read (α : Type) (text : List Char) where
  value : α
  rest : List Char
  shorter : rest.length < text.length

/-- A reader of values of type `α`. -/
abbrev Reader (α : Type) := (text : List Char) → Except Failure (Read α text)

/-- What was read from a later part of a text was read from that text. -/
def Read.of {α : Type} {text later : List Char} (read : Read α later)
    (h : later.length < text.length) : Read α text :=
  ⟨read.value, read.rest, Nat.lt_trans read.shorter h⟩

end SchemaEnums.Json
