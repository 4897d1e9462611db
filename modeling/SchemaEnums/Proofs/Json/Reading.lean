import Mathlib.Data.List.TakeWhile
import SchemaEnums.Json.Reader

/-!
# What a reader reads

The rules by which a document is read, one for each way in which a reader goes on: what stands next
in the text, what is read from there, and what is left.  A proof about reading uses the rules and
does not look into the readers.

* `Reads`: a reader reads a value from the front of a text and leaves the rest.
* `elements_last`, `elements_more`, `members_last`, `members_more`: **the loops over elements and
  over members.**
* `valueWith_array`, `valueWith_object` and those behind them: **a value, by its first character.**
-/

namespace SchemaEnums.Json

/-- A reader reads a value from the front of a text and leaves the rest. -/
abbrev Reads {α : Type} (reader : Reader α) (text : List Char) (value : α) (rest : List Char) :
    Prop :=
  ∃ shorter, reader text = .ok ⟨value, rest, shorter⟩

namespace Reader

variable {item : Reader Json} {nested : Option (Reader Json)} {c : Char} {key : String}
  {first value : Json} {all more : List Json} {pairs : List (String × Json)}
  {text rest next behind last : List Char}

theorem skipBlank_cons (h : c ∉ [' ', '\t', '\n', '\r']) (rest : List Char) :
    skipBlank (c :: rest) = c :: rest := by
  refine List.dropWhile_cons_of_neg ?_
  simpa [or_assoc] using h

/-! ### Arrays -/

theorem elements_last (hfirst : Reads item text first (']' :: rest)) :
    Reads (elements item) text [first] rest := by
  obtain ⟨hshort, hfirst⟩ := hfirst
  refine ⟨by simp at hshort; omega, ?_⟩
  rw [elements, hfirst]
  rfl

theorem elements_more (hfirst : Reads item text first (',' :: c :: behind))
    (hblank : c ∉ [' ', '\t', '\n', '\r']) (hbracket : c ≠ ']')
    (hmore : Reads (elements item) (c :: behind) more last) :
    Reads (elements item) text (first :: more) last := by
  obtain ⟨hshort, hfirst⟩ := hfirst
  obtain ⟨hshorter, hmore⟩ := hmore
  refine ⟨by simp at hshort hshorter; omega, ?_⟩
  rw [elements, hfirst]
  conv => lhs; whnf
  rw [skipBlank_cons hblank]
  simp [hmore]

theorem array_nil (item : Reader Json) (rest : List Char) :
    Reads (array item) (']' :: rest) (.array []) rest :=
  ⟨by simp, rfl⟩

theorem array_elements (hblank : c ∉ [' ', '\t', '\n', '\r']) (hbracket : c ≠ ']')
    (hall : Reads (elements item) (c :: behind) all rest) :
    Reads (array item) (c :: behind) (.array all) rest := by
  obtain ⟨hshorter, hall⟩ := hall
  have hskip := skipBlank_cons hblank behind
  refine ⟨hshorter, ?_⟩
  unfold array
  split
  · rename_i h
    cases hskip.symm.trans h
  · rename_i h
    exact absurd (List.cons.inj (hskip.symm.trans h)).1 hbracket
  · rw [hall]

/-! ### Objects -/

theorem members_last (hkey : Reads string text key (':' :: next))
    (hvalue : Reads item next value ('}' :: rest)) :
    Reads (Reader.members item) text [(key, value)] rest := by
  obtain ⟨hshort, hkey⟩ := hkey
  obtain ⟨hshorter, hvalue⟩ := hvalue
  refine ⟨by simp at hshort hshorter; omega, ?_⟩
  rw [Reader.members, hkey]
  conv => lhs; whnf
  rw [hvalue]
  rfl

theorem members_more (hkey : Reads string text key (':' :: next))
    (hvalue : Reads item next value (',' :: '"' :: behind))
    (hmore : Reads (Reader.members item) behind pairs last) :
    Reads (Reader.members item) text ((key, value) :: pairs) last := by
  obtain ⟨hshort, hkey⟩ := hkey
  obtain ⟨hshorter, hvalue⟩ := hvalue
  obtain ⟨hshortest, hmore⟩ := hmore
  refine ⟨by simp at hshort hshorter; omega, ?_⟩
  rw [Reader.members, hkey]
  conv => lhs; whnf
  rw [hvalue]
  conv => lhs; whnf
  rw [hmore]

theorem object_nil (item : Reader Json) (rest : List Char) :
    Reads (object item) ('}' :: rest) (.object []) rest :=
  ⟨by simp, rfl⟩

theorem object_members (hpairs : Reads (Reader.members item) behind pairs rest) :
    Reads (object item) ('"' :: behind) (ofPairs pairs) rest := by
  obtain ⟨hshorter, hpairs⟩ := hpairs
  refine ⟨by simp; omega, ?_⟩
  conv => lhs; whnf
  rw [hpairs]

/-! ### Values -/

theorem valueWith_array (harray : Reads (array item) rest value behind) :
    Reads (valueWith (some item)) ('[' :: rest) value behind := by
  obtain ⟨hshorter, harray⟩ := harray
  refine ⟨by simp; omega, ?_⟩
  show (array item rest).map _ = _
  rw [harray]
  rfl

theorem valueWith_object (hobject : Reads (object item) rest value behind) :
    Reads (valueWith (some item)) ('{' :: rest) value behind := by
  obtain ⟨hshorter, hobject⟩ := hobject
  refine ⟨by simp; omega, ?_⟩
  show (object item rest).map _ = _
  rw [hobject]
  rfl

theorem valueWith_string (nested : Option (Reader Json)) (hstring : Reads string rest key behind) :
    Reads (valueWith nested) ('"' :: rest) (.string key) behind := by
  obtain ⟨hshorter, hstring⟩ := hstring
  refine ⟨by simp; omega, ?_⟩
  conv => lhs; whnf
  rw [hstring]

theorem valueWith_null (nested : Option (Reader Json)) (rest : List Char) :
    Reads (valueWith nested) ('n' :: 'u' :: 'l' :: 'l' :: rest) .null rest :=
  ⟨by simp; omega, rfl⟩

theorem valueWith_true (nested : Option (Reader Json)) (rest : List Char) :
    Reads (valueWith nested) ('t' :: 'r' :: 'u' :: 'e' :: rest) (.bool true) rest :=
  ⟨by simp; omega, rfl⟩

theorem valueWith_false (nested : Option (Reader Json)) (rest : List Char) :
    Reads (valueWith nested) ('f' :: 'a' :: 'l' :: 's' :: 'e' :: rest) (.bool false) rest :=
  ⟨by simp; omega, rfl⟩

/-- The characters with which other values, or the blanks in front of them, start. -/
def otherStarts : List Char :=
  [' ', '\t', '\n', '\r', '[', '{', '"', 'n', 't', 'f']

theorem valueWith_number (nested : Option (Reader Json)) {n : Number}
    (hc : c = '-' ∨ c.isDigit = true) (hnumber : Reads Reader.number (c :: rest) n behind) :
    Reads (valueWith nested) (c :: rest) (.number n) behind := by
  obtain ⟨hshorter, hnumber⟩ := hnumber
  have hstart : (c = '-' || c.isDigit) = true := by simpa using hc
  have hother : ∀ d ∈ otherStarts, c ≠ d := by
    have hnone : ∀ d ∈ otherStarts, ¬ (d = '-' ∨ d.isDigit = true) := by simp [otherStarts]
    rintro d hd rfl
    exact hnone c hd hc
  have hskip : skipBlank (c :: rest) = c :: rest :=
    skipBlank_cons (fun hblank => hother c (List.mem_append_left _ hblank) rfl) rest
  refine ⟨hshorter, ?_⟩
  -- of the ways in which a value can start, all but the last one are excluded
  unfold valueWith
  split
  · rename_i h
    cases hskip.symm.trans h
  iterate 6
    rename_i h
    exact absurd (List.cons.inj (hskip.symm.trans h)).1 (hother _ (by decide))
  · rename_i h
    cases hskip.symm.trans h
    rw [if_pos hstart, hnumber]

end Reader

end SchemaEnums.Json
