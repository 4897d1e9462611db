import SchemaEnums.Json.Basic
import SchemaEnums.Json.Reader.Basic
import SchemaEnums.Decimal.Scaled

/-!
# Reading numbers

A number is read in two steps.  First its digits are taken apart (`Numeral`), which finds every
misspelled number; then they are given a value (`Numeral.number?`), which finds the ones that are
too large.

A significand holds 64 bits.  The digits from the first one on that would overflow it are dropped:
each dropped digit of the integer part is worth a factor of ten, each dropped digit of the
fraction nothing.
-/

namespace SchemaEnums.Json

/-- The digits of a number, part by part. -/
structure Numeral where
  negative : Bool
  integer : List Nat
  /-- The digits behind the point; without a point there are none. -/
  fraction : List Nat
  /-- The digits of the exponent; without an exponent there are none. -/
  exponent : List Nat
  exponentNegative : Bool

namespace Numeral

/-- What a significand stays below: two to the 64. -/
def significandLimit : Nat := 18446744073709551616

/-- What an exponent stays below: two to the 31. -/
def exponentLimit : Nat := 2147483648

/-- Appends as many leading digits to a significand as fit 64 bits; also says how many those are. -/
def absorb (significand : Nat) : List Nat → Nat × Nat
  | [] => (significand, 0)
  | digit :: rest =>
    let next := significand * 10 + digit
    if next < significandLimit then
      let (all, count) := absorb next rest
      (all, count + 1)
    else (significand, 0)

/-- The number that digits spell. -/
def ofDigits (digits : List Nat) : Nat :=
  digits.foldl (fun n digit => n * 10 + digit) 0

/-- How many digits of the exponent stand behind the one at which it leaves 31 bits. -/
def surplus (digits : List Nat) : Nat :=
  go 0 digits
where
  go (n : Nat) : List Nat → Nat
    | [] => 0
    | digit :: rest =>
      if n * 10 + digit < exponentLimit then go (n * 10 + digit) rest else rest.length

/-- The float a numeral denotes, if it is not too large for one. -/
def float? (numeral : Numeral) : Option Float :=
  let (whole, kept) := absorb 0 numeral.integer
  let (significand, places) := absorb whole numeral.fraction
  let written : Int := ofDigits numeral.exponent
  let exponent : Int := (numeral.integer.length - kept : Nat) - places
    + if numeral.exponentNegative then -written else written
  (Decimal.scaled? significand.toUInt64 exponent).map fun f => if numeral.negative then -f else f

/-- The integer a numeral spells, if it has neither fraction nor exponent and fits 64 bits.
Minus zero is no integer. -/
def integer? (numeral : Numeral) : Option Integer :=
  let magnitude : Int := ofDigits numeral.integer
  let value := if numeral.negative then -magnitude else magnitude
  if !numeral.fraction.isEmpty || !numeral.exponent.isEmpty then none
  else if numeral.negative && magnitude = 0 then none
  else if h : -9223372036854775808 ≤ value ∧ value ≤ 18446744073709551615 then some ⟨value, h⟩
  else none

/-- The number a numeral denotes. -/
def number? (numeral : Numeral) : Option Number :=
  match numeral.integer? with
  | some integer => some (.integer integer)
  | none => numeral.float?.map .float

end Numeral

namespace Reader

/-- The leading digits of a text, and the text behind them. -/
def digits (text : List Char) : List Nat × List Char :=
  ((text.takeWhile Char.isDigit).map (·.toNat - '0'.toNat), text.dropWhile Char.isDigit)

theorem length_digits_le (text : List Char) : (digits text).2.length ≤ text.length :=
  (List.dropWhile_sublist _).length_le

/-- The sign in front of a number. -/
def minus : List Char → Bool × List Char
  | '-' :: rest => (true, rest)
  | text => (false, text)

/-- The digits in front of the point: a single zero, or digits that start with another one. -/
def integerPart (text : List Char) : Except Failure (List Nat × List Char) :=
  match text with
  | [] => .error (.before .endInValue [])
  | '0' :: rest =>
    match rest with
    | c :: _ =>
      if c.isDigit then .error (.into .invalidNumber 1 rest) else .ok ([0], rest)
    | [] => .ok ([0], [])
  | c :: _ =>
    if c.isDigit then .ok (digits text) else .error (.into .invalidNumber 1 text)

/-- At least one digit. -/
def someDigits (text : List Char) : Except Failure (List Nat × List Char) :=
  match text with
  | [] => .error (.before .endInValue [])
  | c :: _ => if c.isDigit then .ok (digits text) else .error (.into .invalidNumber 1 text)

/-- The digits behind the point. -/
def fractionPart (text : List Char) : Except Failure (List Nat × List Char) :=
  match text with
  | '.' :: rest => someDigits rest
  | _ => .ok ([], text)

/-- The digits of the exponent, and whether a minus stands in front of them. -/
def exponentPart (text : List Char) : Except Failure (Bool × List Nat × List Char) :=
  match text with
  | 'e' :: rest | 'E' :: rest =>
    match rest with
    | '-' :: rest => (someDigits rest).map (true, ·)
    | '+' :: rest => (someDigits rest).map (false, ·)
    | _ => (someDigits rest).map (false, ·)
  | _ => .ok (false, [], text)

/-- The digits of a number. -/
def numeral (text : List Char) : Except Failure (Numeral × List Char) := do
  let (negative, unsigned) := minus text
  let (integer, rest) ← integerPart unsigned
  let (fraction, rest) ← fractionPart rest
  let (exponentNegative, exponent, rest) ← exponentPart rest
  return (⟨negative, integer, fraction, exponent, exponentNegative⟩, rest)

theorem length_digits_lt {c : Char} {text : List Char} (h : c.isDigit = true) :
    (digits (c :: text)).2.length < (c :: text).length := by
  have := length_digits_le text
  simp only [digits, List.dropWhile_cons_of_pos h] at this ⊢
  exact Nat.lt_succ_of_le this

theorem length_minus (text : List Char) : (minus text).2.length ≤ text.length := by
  unfold minus
  split <;> simp

theorem length_integerPart {text rest : List Char} {ds : List Nat}
    (h : integerPart text = .ok (ds, rest)) : rest.length < text.length := by
  unfold integerPart at h
  split at h
  · simp at h
  · split at h
    · split at h <;> simp at h
      simp [← h.2]
    · simp at h
      simp [← h.2]
  · rename_i c tail _
    split at h
    · rename_i hdigit
      simp only [Except.ok.injEq] at h
      have hlt : (digits (c :: tail)).2.length < (c :: tail).length := length_digits_lt hdigit
      rwa [h] at hlt
    · simp at h

theorem length_someDigits {text rest : List Char} {ds : List Nat}
    (h : someDigits text = .ok (ds, rest)) : rest.length ≤ text.length := by
  unfold someDigits at h
  split at h
  · simp at h
  · rename_i c tail
    split at h
    · simp only [Except.ok.injEq] at h
      have hle := length_digits_le (c :: tail)
      rwa [h] at hle
    · simp at h

theorem length_fractionPart {text rest : List Char} {ds : List Nat}
    (h : fractionPart text = .ok (ds, rest)) : rest.length ≤ text.length := by
  unfold fractionPart at h
  split at h
  · have := length_someDigits h
    simp; omega
  · simp at h
    simp [h]

theorem length_exponentPart {text rest : List Char} {ds : List Nat} {negative : Bool}
    (h : exponentPart text = .ok (negative, ds, rest)) : rest.length ≤ text.length := by
  have step : ∀ {sign : Bool} {inner : List Char},
      (someDigits inner).map (sign, ·) = .ok (negative, ds, rest) →
      rest.length ≤ inner.length := by
    intro sign inner h
    cases hd : someDigits inner with
    | error failure => simp [hd, Except.map] at h
    | ok part =>
      obtain ⟨ds', rest'⟩ := part
      simp [hd, Except.map] at h
      have := length_someDigits hd
      simp_all
  unfold exponentPart at h
  split at h
  iterate 2
    split at h <;> have := step h <;> simp at * <;> omega
  simp at h
  simp [h]

theorem length_numeral {text rest : List Char} {n : Numeral} (h : numeral text = .ok (n, rest)) :
    rest.length < text.length := by
  unfold numeral at h
  have hminus := length_minus text
  cases hi : integerPart (minus text).2 with
  | error failure => simp [hi, bind, Except.bind] at h
  | ok i =>
    cases hf : fractionPart i.2 with
    | error failure => simp [hi, hf, bind, Except.bind] at h
    | ok f =>
      cases he : exponentPart f.2 with
      | error failure => simp [hi, hf, he, bind, Except.bind] at h
      | ok e =>
        simp [hi, hf, he, bind, Except.bind, pure, Except.pure] at h
        have := length_integerPart hi
        have := length_fractionPart hf
        have := length_exponentPart he
        rw [← h.2]
        omega

/-- A number. -/
def number : Reader Number := fun text =>
  match h : numeral text with
  | .error failure => .error failure
  | .ok (numeral, rest) =>
    match numeral.number? with
    | some value => .ok ⟨value, rest, length_numeral h⟩
    | none =>
      let surplus := Numeral.surplus numeral.exponent
      .error ⟨.numberOutOfRange, byteCount rest + surplus⟩

end Reader

end SchemaEnums.Json
