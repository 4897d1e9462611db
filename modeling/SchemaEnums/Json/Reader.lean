import SchemaEnums.Json.Basic
import SchemaEnums.Json.Fault
import SchemaEnums.Json.Reader.Text
import SchemaEnums.Json.Reader.Numeral

/-!
# Reading a document

A reader takes the text in front of it and returns a value with the strictly shorter text that is
left (`Read`).  Arrays and objects are read by loops over such a reader of their elements; nesting
is a recursion on the number of brackets that may still be opened, so the limit on nesting and the
reason why reading ends are one and the same.

* `Json.Reader.value n`: a value with at most `n` nested brackets.
* `Json.parse`: a whole document, with at most `maxDepth` of them.
-/

namespace SchemaEnums.Json

open Reader

namespace Reader

/-- The text behind leading blanks: spaces, tabs, line feeds and carriage returns. -/
def skipBlank (text : List Char) : List Char :=
  text.dropWhile fun c => c = ' ' || c = '\t' || c = '\n' || c = '\r'

theorem length_skipBlank_le (text : List Char) : (skipBlank text).length ≤ text.length :=
  (List.dropWhile_sublist _).length_le

theorem length_of_skipBlank {text rest : List Char} {c : Char} (h : skipBlank text = c :: rest) :
    rest.length < text.length := by
  have hle := length_skipBlank_le text
  rw [h] at hle
  exact hle

/-- The text behind a word that has to come next. -/
def keyword : List Char → List Char → Except Failure (List Char)
  | [], text => .ok text
  | _ :: _, [] => .error (.before .endInValue [])
  | w :: word, c :: rest =>
    if w = c then keyword word rest else .error (.into .expectedKeyword 1 (c :: rest))

theorem length_keyword : ∀ {word text rest : List Char}, keyword word text = .ok rest →
    rest.length ≤ text.length
  | [], text, rest, h => by simp [keyword] at h; simp [h]
  | _ :: _, [], rest, h => by simp [keyword] at h
  | w :: word, c :: text, rest, h => by
    unfold keyword at h
    split at h
    · exact Nat.le_succ_of_le (length_keyword h)
    · simp at h

/-- The rest of a word whose first character has been seen, standing for `value`. -/
def literal (word : List Char) (value : Json) (text : List Char) :
    Except Failure { read : Json × List Char // read.2.length ≤ text.length } :=
  match h : keyword word text with
  | .error failure => .error failure
  | .ok rest => .ok ⟨(value, rest), length_keyword h⟩

/-- The elements of an array from the next one on, and the bracket that closes it. -/
def elements (item : Reader Json) (text : List Char) : Except Failure (Read (List Json) text) :=
  match item text with
  | .error failure => .error failure
  | .ok ⟨first, rest, _⟩ =>
    match _h : skipBlank rest with
    | [] => .error (.before .endInList [])
    | ']' :: behind => .ok ⟨[first], behind, by have := length_of_skipBlank _h; omega⟩
    | ',' :: behind =>
      match skipBlank behind with
      | [] => .error (.before .endInValue [])
      | ']' :: after => .error (.into .trailingComma 1 (']' :: after))
      | _ :: _ =>
        have := length_of_skipBlank _h
        match elements item behind with
        | .error failure => .error failure
        | .ok ⟨more, last, _⟩ => .ok ⟨first :: more, last, by omega⟩
    | c :: behind => .error (.into .expectedCommaOrBracket 1 (c :: behind))
termination_by text.length

/-- An array, behind its opening bracket. -/
def array (item : Reader Json) (text : List Char) : Except Failure (Read Json text) :=
  match h : skipBlank text with
  | [] => .error (.before .endInList [])
  | ']' :: behind => .ok ⟨.array [], behind, length_of_skipBlank h⟩
  | _ :: _ =>
    match elements item text with
    | .error failure => .error failure
    | .ok ⟨all, rest, shorter⟩ => .ok ⟨.array all, rest, shorter⟩

/-- The members of an object from the key whose opening quote has been seen, and the brace that
closes it. -/
def members (item : Reader Json) (text : List Char) :
    Except Failure (Read (List (String × Json)) text) :=
  match string text with
  | .error failure => .error failure
  | .ok ⟨key, afterKey, _⟩ =>
    match hcolon : skipBlank afterKey with
    | [] => .error (.before .endInObject [])
    | ':' :: beforeValue =>
      match item beforeValue with
      | .error failure => .error failure
      | .ok ⟨value, rest, _⟩ =>
        have := length_of_skipBlank hcolon
        match hend : skipBlank rest with
        | [] => .error (.before .endInObject [])
        | '}' :: behind => .ok ⟨[(key, value)], behind, by have := length_of_skipBlank hend; omega⟩
        | ',' :: behind =>
          match hkey : skipBlank behind with
          | [] => .error (.before .endInValue [])
          | '"' :: next =>
            have := length_of_skipBlank hend
            have := length_of_skipBlank hkey
            match members item next with
            | .error failure => .error failure
            | .ok ⟨more, last, _⟩ => .ok ⟨(key, value) :: more, last, by omega⟩
          | '}' :: after => .error (.into .trailingComma 1 ('}' :: after))
          | c :: after => .error (.into .keyNotString 1 (c :: after))
        | c :: behind => .error (.into .expectedCommaOrBrace 1 (c :: behind))
    | c :: behind => .error (.into .expectedColon 1 (c :: behind))
termination_by text.length

/-- An object, behind its opening brace. -/
def object (item : Reader Json) (text : List Char) : Except Failure (Read Json text) :=
  match h : skipBlank text with
  | [] => .error (.before .endInObject [])
  | '}' :: behind => .ok ⟨.object [], behind, length_of_skipBlank h⟩
  | '"' :: next =>
    match members item next with
    | .error failure => .error failure
    | .ok ⟨pairs, rest, _⟩ => .ok ⟨ofPairs pairs, rest, by have := length_of_skipBlank h; omega⟩
  | c :: behind => .error (.into .keyNotString 1 (c :: behind))

/-- A value whose elements and members are read by `nested`; without it no bracket may open. -/
def valueWith (nested : Option (Reader Json)) : Reader Json := fun text =>
  match h : skipBlank text with
  | [] => .error (.before .endInValue [])
  | '[' :: rest =>
    match nested with
    | none => .error (.into .tooDeep 1 ('[' :: rest))
    | some item => (array item rest).map (·.of (length_of_skipBlank h))
  | '{' :: rest =>
    match nested with
    | none => .error (.into .tooDeep 1 ('{' :: rest))
    | some item => (object item rest).map (·.of (length_of_skipBlank h))
  | '"' :: rest =>
    match string rest with
    | .error failure => .error failure
    | .ok ⟨text, rest, _⟩ => .ok ⟨.string text, rest, by have := length_of_skipBlank h; omega⟩
  | 'n' :: rest => word ['u', 'l', 'l'] .null (length_of_skipBlank h)
  | 't' :: rest => word ['r', 'u', 'e'] (.bool true) (length_of_skipBlank h)
  | 'f' :: rest => word ['a', 'l', 's', 'e'] (.bool false) (length_of_skipBlank h)
  | c :: rest =>
    if c = '-' || c.isDigit then
      match number (c :: rest) with
      | .error failure => .error failure
      | .ok ⟨value, behind, _⟩ =>
        .ok ⟨.number value, behind, by
          have := length_skipBlank_le text
          rw [h] at this
          omega⟩
    else .error (.into .expectedValue 1 (c :: rest))
where
  word (letters : List Char) (value : Json) {rest text : List Char}
      (h : rest.length < text.length) : Except Failure (Read Json text) :=
    match literal letters value rest with
    | .error failure => .error failure
    | .ok ⟨(value, behind), shorter⟩ => .ok ⟨value, behind, by simp at shorter; omega⟩

/-- A value with at most the given number of nested brackets. -/
def value : Nat → Reader Json
  | 0 => valueWith none
  | depth + 1 => valueWith (some (value depth))

/-- A document: a value with nothing but blanks behind it. -/
def document (maxDepth : Nat) (text : List Char) : Except Failure Json :=
  match value maxDepth text with
  | .error failure => .error failure
  | .ok ⟨json, rest, _⟩ =>
    match skipBlank rest with
    | [] => .ok json
    | c :: behind => .error (.into .trailingCharacters 1 (c :: behind))

end Reader

/-- How many brackets may be nested in a document. -/
def maxDepth : Nat := 127

/-- Reads a document. -/
def parse (text : String) : Except SyntaxError Json :=
  (document maxDepth text.toList).mapError (·.locate text)

end SchemaEnums.Json
