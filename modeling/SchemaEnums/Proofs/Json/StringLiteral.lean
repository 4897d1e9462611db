import Mathlib.Data.List.Basic
import SchemaEnums.Json.Reader.Text
import SchemaEnums.Json.StringLiteral

/-!
# String literals read back

A literal is read from its front.  What an escape spells is the character it stands for, so the text
comes back whole, and the reader stops right behind the quote that closes the literal.

* `Spells`: the ways to spell a character, and `spells_escape`: a literal uses these.
* `characters_body`: **a literal reads back as its text, whatever stands behind it.**
* `read?`: the string in front of a text, and `read?_chars`: the same for a whole literal.
* `le_toNat_of_mem_chars`: no control character stands in a literal, so it is a part of one line.
-/

namespace SchemaEnums.StringLiteral

open Json Json.Reader

/-! ### Hexadecimal digits -/

theorem hexDigit?_digitChar : ∀ n < 16, hexDigit? (Nat.digitChar n) = some n := by decide

theorem le_toNat_digitChar : ∀ n < 16, 0x20 ≤ (Nat.digitChar n).toNat := by decide

theorem toNat_lt_of_lt {c : Char} (h : c.toNat < 0x20) : c.toNat / 16 < 16 ∧ c.toNat % 16 < 16 := by
  omega

/-- The two digits of a character below U+0020, behind two zeros, spell its number. -/
theorem hexQuad?_escape {c : Char} (h : c.toNat < 0x20) :
    hexQuad? '0' '0' (Nat.digitChar (c.toNat / 16)) (Nat.digitChar (c.toNat % 16)) =
      some c.toNat := by
  obtain ⟨hhigh, hlow⟩ := toNat_lt_of_lt h
  have hzero : hexDigit? '0' = some 0 := by decide
  simp only [hexQuad?, hzero, hexDigit?_digitChar _ hhigh, hexDigit?_digitChar _ hlow]
  congr 1
  omega

theorem quad_escape {c : Char} (h : c.toNat < 0x20) (rest : List Char) :
    ∃ shorter,
      quad ('0' :: '0' :: Nat.digitChar (c.toNat / 16) :: Nat.digitChar (c.toNat % 16) :: rest) =
        .ok ⟨c.toNat, rest, shorter⟩ :=
  ⟨by simp; omega, by simp only [quad, hexQuad?_escape h]⟩

/-! ### One character -/

/-- The escapes of one letter: the letter behind the backslash, and the character it stands for. -/
def letterEscapes : List (Char × Char) :=
  [('"', '"'), ('\\', '\\'), ('b', '\x08'), ('f', '\x0c'), ('n', '\n'), ('r', '\r'), ('t', '\t')]

/-- The ways to spell a character: by itself, if it is neither a quote nor a backslash nor a control
character, by a letter, or by its number. -/
inductive Spells (c : Char) : List Char → Prop
  | plain (hquote : c ≠ '"') (hbackslash : c ≠ '\\') (hplain : 0x20 ≤ c.toNat) : Spells c [c]
  | letter {letter : Char} (hletter : (letter, c) ∈ letterEscapes) : Spells c ['\\', letter]
  | number (hcontrol : c.toNat < 0x20) :
      Spells c ['\\', 'u', '0', '0', Nat.digitChar (c.toNat / 16), Nat.digitChar (c.toNat % 16)]

theorem spells_escape (c : Char) : Spells c (escape c) := by
  unfold escape
  split
  · exact .letter (by decide)
  · exact .letter (by decide)
  · exact .letter (by decide)
  · exact .letter (by decide)
  · exact .letter (by decide)
  · exact .letter (by decide)
  · exact .letter (by decide)
  · rename_i hquote hbackslash _ _ _ _ _
    by_cases hcontrol : c.toNat < 0x20
    · rw [if_pos hcontrol]
      exact .number hcontrol
    · rw [if_neg hcontrol]
      exact .plain hquote hbackslash (Nat.le_of_not_lt hcontrol)

theorem Spells.le_toNat {c : Char} {code : List Char} (h : Spells c code) :
    ∀ d ∈ code, 0x20 ≤ d.toNat := by
  cases h with
  | plain _ _ hplain => exact List.forall_mem_singleton.mpr hplain
  | letter hletter =>
    have hall : ∀ pair ∈ letterEscapes, ∀ d ∈ ['\\', pair.1], 0x20 ≤ d.toNat := by
      simp [letterEscapes]
    exact hall _ hletter
  | number hcontrol =>
    obtain ⟨hhigh, hlow⟩ := toNat_lt_of_lt hcontrol
    have hhigh' := le_toNat_digitChar _ hhigh
    have hlow' := le_toNat_digitChar _ hlow
    simp [hhigh', hlow']

theorem escaped_of_letter {letter c : Char} (h : (letter, c) ∈ letterEscapes) (rest : List Char) :
    ∃ shorter, escaped (letter :: rest) = .ok ⟨c, rest, shorter⟩ := by
  simp only [letterEscapes, List.mem_cons, Prod.mk.injEq, List.not_mem_nil, or_false] at h
  rcases h with ⟨rfl, rfl⟩ | ⟨rfl, rfl⟩ | ⟨rfl, rfl⟩ | ⟨rfl, rfl⟩ | ⟨rfl, rfl⟩ | ⟨rfl, rfl⟩ |
    ⟨rfl, rfl⟩ <;> exact ⟨by simp, rfl⟩

theorem escaped_of_number {c : Char} (h : c.toNat < 0x20) (rest : List Char) :
    ∃ shorter,
      escaped ('u' :: '0' :: '0' :: Nat.digitChar (c.toNat / 16) :: Nat.digitChar (c.toNat % 16) ::
          rest) =
        .ok ⟨c, rest, shorter⟩ := by
  have hlow : ¬ (0xDC00 ≤ c.toNat ∧ c.toNat ≤ 0xDFFF) := by omega
  have hhigh : ¬ (0xD800 ≤ c.toNat ∧ c.toNat ≤ 0xDBFF) := by omega
  obtain ⟨shorter, hquad⟩ := quad_escape h rest
  refine ⟨by simp; omega, ?_⟩
  simp only [escaped, hquad, if_neg hlow, if_neg hhigh, Char.ofNat_toNat]

/-! ### A whole literal -/

theorem characters_of_escaped {code rest more behind : List Char} {c : Char}
    (hcode : ∃ shorter, escaped code = .ok ⟨c, rest, shorter⟩)
    (hrest : ∃ shorter, characters rest = .ok ⟨more, behind, shorter⟩) :
    ∃ shorter, characters ('\\' :: code) = .ok ⟨c :: more, behind, shorter⟩ := by
  obtain ⟨hshort, hcode⟩ := hcode
  obtain ⟨hshorter, hrest⟩ := hrest
  refine ⟨by simp; omega, ?_⟩
  rw [characters]
  simp only [hcode, hrest]

theorem characters_of_plain {rest more behind : List Char} {c : Char} (hquote : c ≠ '"')
    (hbackslash : c ≠ '\\') (hplain : 0x20 ≤ c.toNat)
    (hrest : ∃ shorter, characters rest = .ok ⟨more, behind, shorter⟩) :
    ∃ shorter, characters (c :: rest) = .ok ⟨c :: more, behind, shorter⟩ := by
  obtain ⟨hshorter, hrest⟩ := hrest
  refine ⟨by simp; omega, ?_⟩
  rw [characters]
  · simp only [if_neg (Nat.not_lt.mpr hplain), hrest]
  · exact hquote
  · exact hbackslash

theorem Spells.characters_append {c : Char} {code rest more behind : List Char} (h : Spells c code)
    (hrest : ∃ shorter, characters rest = .ok ⟨more, behind, shorter⟩) :
    ∃ shorter, characters (code ++ rest) = .ok ⟨c :: more, behind, shorter⟩ := by
  cases h with
  | plain hquote hbackslash hplain => exact characters_of_plain hquote hbackslash hplain hrest
  | letter hletter => exact characters_of_escaped (escaped_of_letter hletter rest) hrest
  | number hcontrol => exact characters_of_escaped (escaped_of_number hcontrol rest) hrest

/-- **A literal reads back as its text, whatever stands behind it.** -/
theorem characters_body (text rest : List Char) :
    ∃ shorter, characters (body text ++ '"' :: rest) = .ok ⟨text, rest, shorter⟩ := by
  induction text with
  | nil =>
    refine ⟨by simp [body], ?_⟩
    show characters ('"' :: rest) = _
    rw [characters]
    rfl
  | cons c text ih =>
    have hbody : body (c :: text) = escape c ++ body text := List.flatMap_cons
    rw [hbody, List.append_assoc]
    exact (spells_escape c).characters_append ih

/-- The value of the string literal in front of a text, and the text behind it, by the rules of
documents. -/
def read? : List Char → Option (String × List Char)
  | '"' :: rest =>
    match Reader.string rest with
    | .ok read => some (read.value, read.rest)
    | .error _ => none
  | _ => none

/-- Read by the rules of documents, a literal has its text as its value and ends where it ends. -/
theorem read?_chars (text : String) (rest : List Char) :
    read? (chars text.toList ++ rest) = some (text, rest) := by
  obtain ⟨shorter, hread⟩ := characters_body text.toList rest
  rw [chars, List.cons_append, List.append_assoc, List.singleton_append, read?, Reader.string,
    hread]
  simp

theorem le_toNat_of_mem_chars {text : List Char} {d : Char} (h : d ∈ chars text) :
    0x20 ≤ d.toNat := by
  have hquote : 0x20 ≤ '"'.toNat := by decide
  rcases List.mem_cons.mp h with rfl | h
  · exact hquote
  rcases List.mem_append.mp h with hbody | hlast
  · obtain ⟨c, -, hd⟩ := List.mem_flatMap.mp hbody
    exact (spells_escape c).le_toNat d hd
  · cases List.mem_singleton.mp hlast
    exact hquote

theorem lineFeed_notMem_chars (text : List Char) : '\n' ∉ chars text := by
  intro h
  have hle := le_toNat_of_mem_chars h
  revert hle
  decide

end SchemaEnums.StringLiteral
