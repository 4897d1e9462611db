import SchemaEnums.Json.Reader.Basic

/-!
# Reading strings

A string is read from behind its opening quote.  Escapes are one letter, or `u` and four hexadecimal
digits; two of the latter make one character when they are a pair of surrogates.
-/

namespace SchemaEnums.Json.Reader

/-- The value of a hexadecimal digit. -/
def hexDigit? (c : Char) : Option Nat :=
  if c.isDigit then some (c.toNat - '0'.toNat)
  else if 'a' ≤ c ∧ c ≤ 'f' then some (c.toNat - 'a'.toNat + 10)
  else if 'A' ≤ c ∧ c ≤ 'F' then some (c.toNat - 'A'.toNat + 10)
  else none

/-- The number that four hexadecimal digits spell. -/
def hexQuad? (a b c d : Char) : Option Nat :=
  match hexDigit? a, hexDigit? b, hexDigit? c, hexDigit? d with
  | some a, some b, some c, some d => some (((a * 16 + b) * 16 + c) * 16 + d)
  | _, _, _, _ => none

/-- Four bytes that are not four hexadecimal digits are taken together, whatever they are. -/
def quadFailure (text : List Char) : Failure :=
  if byteCount text < 4 then .before .endInString [] else .into .invalidEscape 4 text

/-- Four hexadecimal digits. -/
def quad (text : List Char) : Except Failure (Read Nat text) :=
  match text with
  | a :: b :: c :: d :: rest =>
    match hexQuad? a b c d with
    | some unit => .ok ⟨unit, rest, by simp; omega⟩
    | none => .error (quadFailure (a :: b :: c :: d :: rest))
  | short => .error (quadFailure short)

/-- The second half of a pair of surrogates, whose first half is `leading`. -/
def trailingSurrogate (leading : Nat) (text : List Char) : Except Failure (Read Char text) :=
  match text with
  | [] | ['\\'] => .error (.before .endInString [])
  | '\\' :: 'u' :: digits =>
    match quad digits with
    | .error failure => .error failure
    | .ok ⟨unit, rest, _⟩ =>
      if 0xDC00 ≤ unit ∧ unit ≤ 0xDFFF then
        .ok ⟨.ofNat (0x10000 + (leading - 0xD800) * 0x400 + (unit - 0xDC00)), rest, by
          simp; omega⟩
      else .error (.before .loneSurrogate rest)
  | '\\' :: rest => .error (.into .unfinishedSurrogatePair 1 rest)
  | rest => .error (.into .unfinishedSurrogatePair 1 rest)

/-- The character of an escape, behind its backslash. -/
def escaped (text : List Char) : Except Failure (Read Char text) :=
  match text with
  | [] => .error (.before .endInString [])
  | '"' :: rest => .ok ⟨'"', rest, by simp⟩
  | '\\' :: rest => .ok ⟨'\\', rest, by simp⟩
  | '/' :: rest => .ok ⟨'/', rest, by simp⟩
  | 'b' :: rest => .ok ⟨'\x08', rest, by simp⟩
  | 'f' :: rest => .ok ⟨'\x0c', rest, by simp⟩
  | 'n' :: rest => .ok ⟨'\n', rest, by simp⟩
  | 'r' :: rest => .ok ⟨'\r', rest, by simp⟩
  | 't' :: rest => .ok ⟨'\t', rest, by simp⟩
  | 'u' :: digits =>
    match quad digits with
    | .error failure => .error failure
    | .ok ⟨unit, rest, _⟩ =>
      if 0xDC00 ≤ unit ∧ unit ≤ 0xDFFF then .error (.before .loneSurrogate rest)
      else if 0xD800 ≤ unit ∧ unit ≤ 0xDBFF then
        match trailingSurrogate unit rest with
        | .error failure => .error failure
        | .ok ⟨c, behind, _⟩ => .ok ⟨c, behind, by simp; omega⟩
      else .ok ⟨.ofNat unit, rest, by simp; omega⟩
  | rest => .error (.into .invalidEscape 1 rest)

/-- The characters of a string up to the quote that closes it. -/
def characters (text : List Char) : Except Failure (Read (List Char) text) :=
  match text with
  | [] => .error (.before .endInString [])
  | '"' :: rest => .ok ⟨[], rest, by simp⟩
  | '\\' :: escape =>
    match escaped escape with
    | .error failure => .error failure
    | .ok ⟨c, rest, _⟩ =>
      match characters rest with
      | .error failure => .error failure
      | .ok ⟨more, behind, _⟩ => .ok ⟨c :: more, behind, by simp; omega⟩
  | c :: rest =>
    if c.toNat < 0x20 then .error (.before .controlCharacter rest)
    else
      match characters rest with
      | .error failure => .error failure
      | .ok ⟨more, behind, _⟩ => .ok ⟨c :: more, behind, by simp; omega⟩
termination_by text.length

/-- A string, behind its opening quote. -/
def string : Reader String := fun text =>
  match characters text with
  | .error failure => .error failure
  | .ok ⟨all, rest, shorter⟩ => .ok ⟨.ofList all, rest, shorter⟩

end SchemaEnums.Json.Reader
