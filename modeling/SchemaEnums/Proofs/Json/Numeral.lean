import Mathlib.Data.List.TakeWhile
import SchemaEnums.Json.Printer
import SchemaEnums.Json.Reader.Numeral

/-!
# Integers read back

An integer is written with as few digits as it has, so the reader takes them as they are: no zero
stands in front of another digit, and what stands behind the integer does not go on with it.

* `EndsNumber`: a text that does not go on with a number in front of it.
* `exists_toDigits_eq_cons`: no zero stands in front of another digit.
* `numeral_chars`: the parts of an integer that has been written.
* `number_chars`: **an integer reads back**, and the reader stops right behind it.
-/

namespace SchemaEnums.Json

open Reader

/-- A text that does not go on with a number in front of it: neither with a digit, nor with a
fraction or an exponent. -/
def EndsNumber (rest : List Char) : Prop :=
  ∀ c ∈ rest.head?, c.isDigit = false ∧ c ≠ '.' ∧ c ≠ 'e' ∧ c ≠ 'E'

variable {rest : List Char} {n : Nat}

/-! ### Digits -/

theorem isDigit_of_mem_toDigits {c : Char} (h : c ∈ Nat.toDigits 10 n) : c.isDigit = true :=
  Nat.isDigit_of_mem_toDigits (by decide) (by decide) h

/-- **No zero stands in front of another digit.** -/
theorem exists_toDigits_eq_cons (h : n ≠ 0) :
    ∃ c more, Nat.toDigits 10 n = c :: more ∧ c ≠ '0' := by
  induction n using Nat.strongRecOn with
  | ind n ih =>
    by_cases hlt : n < 10
    · have hnonzero : ∀ d < 10, d ≠ 0 → Nat.digitChar d ≠ '0' := by decide
      exact ⟨Nat.digitChar n, [], Nat.toDigits_of_lt_base hlt, hnonzero n hlt h⟩
    · obtain ⟨c, more, hfront, hc⟩ := ih (n / 10) (by omega) (by omega)
      refine ⟨c, more ++ [Nat.digitChar (n % 10)], ?_, hc⟩
      rw [Nat.toDigits_of_base_le (by decide) (Nat.le_of_not_lt hlt), hfront, List.cons_append]

/-- The values of digits. -/
def digitValues (digits : List Char) : List Nat :=
  digits.map (·.toNat - '0'.toNat)

theorem ofDigits_digitValues (digits : List Char) :
    Numeral.ofDigits (digitValues digits) = Nat.ofDigitChars 10 digits 0 := by
  rw [Numeral.ofDigits, digitValues, List.foldl_map, Nat.ofDigitChars]
  congr 1
  funext sofar c
  rw [Nat.mul_comm]

theorem ofDigits_toDigits (n : Nat) : Numeral.ofDigits (digitValues (Nat.toDigits 10 n)) = n := by
  rw [ofDigits_digitValues, Nat.ofDigitChars_ten_toDigits]

/-! ### The parts of an integer -/

theorem digits_append {ds : List Char} (hds : ∀ c ∈ ds, c.isDigit = true)
    (hrest : EndsNumber rest) : digits (ds ++ rest) = (digitValues ds, rest) := by
  have hnone : rest.takeWhile Char.isDigit = [] ∧ rest.dropWhile Char.isDigit = rest := by
    cases rest with
    | nil => exact ⟨rfl, rfl⟩
    | cons c behind =>
      have hc := (hrest c rfl).1
      exact ⟨List.takeWhile_cons_of_neg (by simp [hc]), List.dropWhile_cons_of_neg (by simp [hc])⟩
  rw [digits, List.takeWhile_append_of_pos hds, List.dropWhile_append_of_pos hds, hnone.1, hnone.2,
    List.append_nil]
  rfl

theorem integerPart_toDigits (n : Nat) (hrest : EndsNumber rest) :
    integerPart (Nat.toDigits 10 n ++ rest) = .ok (digitValues (Nat.toDigits 10 n), rest) := by
  have hdigits : digits (Nat.toDigits 10 n ++ rest) = (digitValues (Nat.toDigits 10 n), rest) :=
    digits_append (fun _ => isDigit_of_mem_toDigits) hrest
  by_cases hzero : n = 0
  · subst hzero
    show integerPart ('0' :: rest) = .ok ([0], rest)
    cases rest with
    | nil => rfl
    | cons c behind =>
      have hc := (hrest c rfl).1
      rw [integerPart]
      simp only [hc, Bool.false_eq_true, if_false]
  · obtain ⟨c, more, hcons, hc⟩ := exists_toDigits_eq_cons hzero
    have hdigit : c.isDigit = true := isDigit_of_mem_toDigits (hcons ▸ List.mem_cons_self)
    rw [hcons, List.cons_append] at hdigits ⊢
    rw [integerPart, if_pos hdigit, hdigits]
    exact fun h => hc h

theorem fractionPart_of_endsNumber (hrest : EndsNumber rest) :
    fractionPart rest = .ok ([], rest) := by
  rw [fractionPart]
  rintro behind rfl
  exact (hrest '.' rfl).2.1 rfl

theorem exponentPart_of_endsNumber (hrest : EndsNumber rest) :
    exponentPart rest = .ok (false, [], rest) := by
  rw [exponentPart]
  · rintro behind rfl
    exact (hrest 'e' rfl).2.2.1 rfl
  · rintro behind rfl
    exact (hrest 'E' rfl).2.2.2 rfl

/-- The parts of an integer. -/
def Integer.numeral (i : Integer) : Numeral :=
  ⟨decide (i.val < 0), digitValues (Nat.toDigits 10 i.val.natAbs), [], [], false⟩

theorem minus_chars (i : Integer) (rest : List Char) :
    minus (i.chars ++ rest) = (decide (i.val < 0), Nat.toDigits 10 i.val.natAbs ++ rest) := by
  rw [Integer.chars]
  by_cases hnegative : i.val < 0
  · rw [if_pos hnegative, decide_eq_true hnegative]
    rfl
  · rw [if_neg hnegative, decide_eq_false hnegative, minus]
    intro behind hminus
    -- a digit stands in front
    cases hdigits : Nat.toDigits 10 i.val.natAbs with
    | nil => exact Nat.toDigits_ne_nil hdigits
    | cons c more =>
      have hdigit := isDigit_of_mem_toDigits (hdigits ▸ List.mem_cons_self)
      rw [hdigits] at hminus
      rw [(List.cons.inj hminus).1] at hdigit
      revert hdigit
      decide

theorem numeral_chars (i : Integer) (hrest : EndsNumber rest) :
    Reader.numeral (i.chars ++ rest) = .ok (i.numeral, rest) := by
  rw [Reader.numeral, minus_chars]
  simp only [integerPart_toDigits _ hrest, fractionPart_of_endsNumber hrest,
    exponentPart_of_endsNumber hrest, bind, Except.bind, pure, Except.pure]
  rfl

theorem integer?_numeral (i : Integer) : i.numeral.integer? = some i := by
  obtain ⟨value, hrange⟩ := i
  have hvalue : (if decide (value < 0) = true then -(value.natAbs : Int) else value.natAbs) =
      value := by
    simp only [decide_eq_true_iff]
    split <;> omega
  -- a negative integer is not minus zero
  have hnonzero : (decide (value < 0) && decide ((value.natAbs : Int) = 0)) = false := by
    rw [Bool.and_eq_false_iff, decide_eq_false_iff_not, decide_eq_false_iff_not]
    omega
  simp only [Numeral.integer?, Integer.numeral, ofDigits_toDigits, List.isEmpty_nil, Bool.not_true,
    Bool.or_self, Bool.false_eq_true, if_false, hnonzero, hvalue, dif_pos hrange]

/-- **An integer reads back**, and the reader stops right behind it. -/
theorem number_chars (i : Integer) (hrest : EndsNumber rest) :
    ∃ shorter, Reader.number (i.chars ++ rest) = .ok ⟨.integer i, rest, shorter⟩ := by
  have hnumeral := numeral_chars i hrest
  have hnumber : i.numeral.number? = some (.integer i) := by
    rw [Numeral.number?, integer?_numeral]
  refine ⟨length_numeral hnumeral, ?_⟩
  unfold Reader.number
  split
  · rename_i failure hfailure
    cases hnumeral.symm.trans hfailure
  · rename_i parts behind hparts
    cases hnumeral.symm.trans hparts
    rw [hnumber]

end SchemaEnums.Json
