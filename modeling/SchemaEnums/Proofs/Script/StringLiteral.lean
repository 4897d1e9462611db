import SchemaEnums.Proofs.Json.StringLiteral

/-!
# String literals of the target language

A string literal is read as ECMAScript reads one in the code of a module, where octal escapes are
errors.  Its value is a list of UTF-16 code units, so two of them stand for a character beyond
U+FFFF.  A literal that spells the strings of a JSON document is one of these literals as well, with
the same value: it uses escapes that both languages have, and the separators U+2028 and U+2029, which
are the ends of lines in a script, may stand in a literal as they are.

* `literal?`: the value of the string literal in front of a text, and the text behind it.
* `utf16`: the code units of a text, and `utf16_injective`: **they tell the text.**
* `characters?_body`: **a literal reads back as the code units of its text, whatever stands behind
  it.**
-/

namespace SchemaEnums.Script

open Json (Read)
open Json.Reader (hexDigit? quad)

/-! ### Code units -/

/-- The code units of a code point. -/
def units (codePoint : Nat) : List Nat :=
  if codePoint < 0x10000 then [codePoint]
  else [0xD800 + (codePoint - 0x10000) / 0x400, 0xDC00 + (codePoint - 0x10000) % 0x400]

/-- The code units of a text. -/
def utf16 (text : List Char) : List Nat :=
  text.flatMap fun c => units c.toNat

theorem utf16_cons (c : Char) (text : List Char) : utf16 (c :: text) = units c.toNat ++ utf16 text :=
  List.flatMap_cons

theorem units_ne_nil (codePoint : Nat) : units codePoint ≠ [] := by
  unfold units
  split <;> exact List.cons_ne_nil _ _

/-- A character is no surrogate. -/
theorem toNat_lt_or_lt (c : Char) : c.toNat < 0xD800 ∨ 0xDFFF < c.toNat ∧ c.toNat < 0x110000 :=
  c.valid

/-- The code units in front tell the character: a leading surrogate is no character of its own. -/
theorem units_append_inj {c d : Char} {rest other : List Nat}
    (h : units c.toNat ++ rest = units d.toNat ++ other) : c = d ∧ rest = other := by
  have hc := toNat_lt_or_lt c
  have hd := toNat_lt_or_lt d
  unfold units at h
  split at h
  · split at h
    · obtain ⟨hfirst, hrest⟩ := List.cons.inj h
      exact ⟨Char.toNat_inj.mp hfirst, hrest⟩
    · obtain ⟨hfirst, -⟩ := List.cons.inj h
      omega
  · split at h
    · obtain ⟨hfirst, -⟩ := List.cons.inj h
      omega
    · obtain ⟨hfirst, htail⟩ := List.cons.inj h
      obtain ⟨hsecond, hrest⟩ := List.cons.inj htail
      exact ⟨Char.toNat_inj.mp (by omega), hrest⟩

/-- **Different texts have different code units.** -/
theorem utf16_injective : Function.Injective utf16 := by
  intro text other h
  induction text generalizing other with
  | nil =>
    cases other with
    | nil => rfl
    | cons d other =>
      rw [utf16_cons] at h
      exact absurd (List.append_eq_nil_iff.mp h.symm).1 (units_ne_nil _)
  | cons c text ih =>
    cases other with
    | nil =>
      rw [utf16_cons] at h
      exact absurd (List.append_eq_nil_iff.mp h).1 (units_ne_nil _)
    | cons d other =>
      rw [utf16_cons, utf16_cons] at h
      obtain ⟨rfl, hrest⟩ := units_append_inj h
      rw [ih hrest]

/-! ### Escapes -/

/-- The letters that stand for a control character behind a backslash. -/
def letterUnit? (c : Char) : Option Nat :=
  [('b', 0x08), ('t', 0x09), ('n', 0x0A), ('v', 0x0B), ('f', 0x0C), ('r', 0x0D)].lookup c

/-- The characters that end a line of a script. -/
def lineTerminators : List Char := ['\n', '\r', '\u2028', '\u2029']

/-- Two hexadecimal digits. -/
def pairEscape? (text : List Char) : Option (Read (List Nat) text) :=
  match text with
  | a :: b :: rest =>
    match hexDigit? a, hexDigit? b with
    | some a, some b => some ⟨[a * 16 + b], rest, by show rest.length < rest.length + 2; omega⟩
    | _, _ => none
  | _ => none

/-- Hexadecimal digits up to a closing brace, which spell a code point. -/
def codePointEscape? (text : List Char) : Option (Read (List Nat) text) :=
  let digits := text.takeWhile fun c => (hexDigit? c).isSome
  let value := digits.foldl (fun value c => value * 16 + (hexDigit? c).getD 0) 0
  match h : text.dropWhile fun c => (hexDigit? c).isSome with
  | '}' :: rest =>
    if digits = [] ∨ 0x10FFFF < value then none
    else some ⟨units value, rest, by
      have hle := (List.dropWhile_sublist (l := text) fun c => (hexDigit? c).isSome).length_le
      rw [h] at hle
      exact hle⟩
  | _ => none

/-- Four hexadecimal digits, which spell a code unit, or any number of them in braces. -/
def unicodeEscape? (text : List Char) : Option (Read (List Nat) text) :=
  match text with
  | '{' :: rest => (codePointEscape? rest).map (·.of (Nat.lt_succ_self _))
  | digits =>
    (quad digits).toOption.map fun read => ⟨[read.value], read.rest, read.shorter⟩

/-- An escape, behind its backslash.  The end of a line is left out, and a character without a
meaning of its own stands for itself; a digit may not follow, but for a zero that stands alone. -/
def escape? (text : List Char) : Option (Read (List Nat) text) :=
  match text with
  | [] => none
  | 'x' :: rest => (pairEscape? rest).map (·.of (Nat.lt_succ_self _))
  | 'u' :: rest => (unicodeEscape? rest).map (·.of (Nat.lt_succ_self _))
  | '0' :: rest => if rest.head?.any Char.isDigit then none else some ⟨[0], rest, Nat.lt_succ_self _⟩
  | '\r' :: '\n' :: rest => some ⟨[], rest, by show rest.length < rest.length + 2; omega⟩
  | c :: rest =>
    match letterUnit? c with
    | some unit => some ⟨[unit], rest, Nat.lt_succ_self _⟩
    | none =>
      if c.isDigit then none
      else if c ∈ lineTerminators then some ⟨[], rest, Nat.lt_succ_self _⟩
      else some ⟨units c.toNat, rest, Nat.lt_succ_self _⟩

/-! ### Literals -/

/-- The characters of a literal up to the quote that closes it. -/
def characters? (quote : Char) (text : List Char) : Option (Read (List Nat) text) :=
  match text with
  | [] => none
  | c :: rest =>
    if c = quote then some ⟨[], rest, Nat.lt_succ_self _⟩
    else if c = '\\' then
      (escape? rest).bind fun first =>
        (characters? quote first.rest).map fun more =>
          ⟨first.value ++ more.value, more.rest,
            Nat.lt_succ_of_lt (Nat.lt_trans more.shorter first.shorter)⟩
    else if c = '\n' ∨ c = '\r' then none
    else
      (characters? quote rest).map fun more =>
        ⟨units c.toNat ++ more.value, more.rest, Nat.lt_succ_of_lt more.shorter⟩
termination_by text.length
decreasing_by
  · exact Nat.lt_succ_of_lt first.shorter
  · exact Nat.lt_succ_self _

/-- The value of the string literal in front of a text, and the text behind it. -/
def literal? (text : List Char) : Option (List Nat × List Char) :=
  match text with
  | [] => none
  | quote :: rest =>
    if quote = '"' ∨ quote = '\x27' then
      (characters? quote rest).map fun read => (read.value, read.rest)
    else none

/-! ### The literals of documents -/

open StringLiteral (Spells letterEscapes spells_escape body escape)

variable {c : Char} {code first rest more behind : List Char} {value : List Nat}

theorem escape?_of_letter {letter : Char} (h : (letter, c) ∈ letterEscapes) (rest : List Char) :
    ∃ shorter, escape? (letter :: rest) = some ⟨units c.toNat, rest, shorter⟩ := by
  simp only [letterEscapes, List.mem_cons, Prod.mk.injEq, List.not_mem_nil, or_false] at h
  rcases h with ⟨rfl, rfl⟩ | ⟨rfl, rfl⟩ | ⟨rfl, rfl⟩ | ⟨rfl, rfl⟩ | ⟨rfl, rfl⟩ | ⟨rfl, rfl⟩ |
    ⟨rfl, rfl⟩ <;> exact ⟨by simp, rfl⟩

theorem escape?_of_number (h : c.toNat < 0x20) (rest : List Char) :
    ∃ shorter,
      escape? ('u' :: '0' :: '0' :: Nat.digitChar (c.toNat / 16) :: Nat.digitChar (c.toNat % 16) ::
          rest) =
        some ⟨units c.toNat, rest, shorter⟩ := by
  have hunits : units c.toNat = [c.toNat] := if_pos (by omega)
  obtain ⟨shorter, hquad⟩ := StringLiteral.quad_escape h rest
  refine ⟨by simp; omega, ?_⟩
  rw [escape?, unicodeEscape?, hquad, hunits]
  · rfl
  · rintro _ ⟨⟩

theorem characters?_of_escape (hcode : ∃ shorter, escape? code = some ⟨value, rest, shorter⟩)
    {values : List Nat}
    (hrest : ∃ shorter, characters? '"' rest = some ⟨values, behind, shorter⟩) :
    ∃ shorter, characters? '"' ('\\' :: code) = some ⟨value ++ values, behind, shorter⟩ := by
  obtain ⟨hshort, hcode⟩ := hcode
  obtain ⟨hshorter, hrest⟩ := hrest
  refine ⟨by simp; omega, ?_⟩
  rw [characters?, if_neg (by decide), if_pos rfl]
  simp only [hcode, Option.bind_some, hrest, Option.map_some]

theorem characters?_of_spells {values : List Nat} (h : Spells c code)
    (hrest : ∃ shorter, characters? '"' rest = some ⟨values, behind, shorter⟩) :
    ∃ shorter, characters? '"' (code ++ rest) =
      some ⟨units c.toNat ++ values, behind, shorter⟩ := by
  cases h with
  | plain hquote hbackslash hplain =>
    have hline : ¬ (c = '\n' ∨ c = '\r') := by
      rintro (rfl | rfl)
      · exact absurd hplain (by decide)
      · exact absurd hplain (by decide)
    obtain ⟨hshorter, hrest⟩ := hrest
    refine ⟨by simp; omega, ?_⟩
    show characters? '"' (c :: rest) = _
    rw [characters?, if_neg hquote, if_neg hbackslash, if_neg hline, hrest]
    rfl
  | letter hletter => exact characters?_of_escape (escape?_of_letter hletter rest) hrest
  | number hcontrol => exact characters?_of_escape (escape?_of_number hcontrol rest) hrest

/-- **A literal reads back as the code units of its text, whatever stands behind it.** -/
theorem characters?_body (text rest : List Char) :
    ∃ shorter, characters? '"' (body text ++ '"' :: rest) = some ⟨utf16 text, rest, shorter⟩ := by
  induction text with
  | nil =>
    refine ⟨by simp [body], ?_⟩
    show characters? '"' ('"' :: rest) = _
    rw [characters?, if_pos rfl]
    rfl
  | cons c text ih =>
    have hbody : body (c :: text) = escape c ++ body text := List.flatMap_cons
    rw [hbody, List.append_assoc]
    exact characters?_of_spells (spells_escape c) ih

theorem literal?_chars (text rest : List Char) :
    literal? (StringLiteral.chars text ++ rest) = some (utf16 text, rest) := by
  obtain ⟨shorter, hread⟩ := characters?_body text rest
  rw [StringLiteral.chars, List.cons_append, List.append_assoc, List.singleton_append, literal?,
    if_pos (Or.inl rfl), hread]
  rfl

end SchemaEnums.Script
