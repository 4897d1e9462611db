import Mathlib.Data.List.Basic
import Mathlib.Data.List.Induction
import Mathlib.Data.List.Infix
import SchemaEnums.Path

/-!
# Paths as bytes

The system sees the bytes of a path, the library its characters.  Both agree on what matters here,
because a byte below 128 always stands for the character of that number.

* `Path.bytes_eq`: the bytes of a path are those of its characters.
* `Utf8.slash_mem_iff`: a slash is a slash.
* `Utf8.suffix_iff`: a text of such characters ends the bytes exactly when it ends the text.
* `Utf8.splitOn_encode`: **the segments of the bytes are the bytes of the segments.**
* `splitOn_joinWith`: the segments of a joined path are those of the directory and the name.
* `Path.bytes_join`: **joining texts and joining bytes is the same.**
-/

namespace SchemaEnums

namespace Utf8

/-- The bytes of characters. -/
def encode (text : List Char) : List UInt8 :=
  text.flatMap String.utf8EncodeChar

@[simp] theorem encode_nil : encode [] = [] := rfl

@[simp] theorem encode_append (front behind : List Char) :
    encode (front ++ behind) = encode front ++ encode behind :=
  List.flatMap_append

theorem encode_cons (c : Char) (rest : List Char) :
    encode (c :: rest) = String.utf8EncodeChar c ++ encode rest :=
  List.flatMap_cons

/-! ### One character -/

theorem encodeChar_of_lt {c : Char} (h : c.toNat < 128) :
    String.utf8EncodeChar c = [UInt8.ofNat c.toNat] := by
  have hle : c.val.toNat ≤ 127 := Nat.le_of_lt_succ h
  simp only [String.utf8EncodeChar, hle, if_true]
  rfl

theorem le_of_mem_encodeChar {c : Char} {b : UInt8} (h : 128 ≤ c.toNat)
    (hb : b ∈ String.utf8EncodeChar c) : 128 ≤ b.toNat := by
  have hgt : ¬ c.val.toNat ≤ 127 := Nat.not_le_of_lt h
  have hbound : c.val.toNat < 1114112 := by
    have := c.valid
    simp only [UInt32.isValidChar, Nat.isValidChar] at this
    omega
  simp only [String.utf8EncodeChar, hgt, if_false] at hb
  split at hb
  · simp only [List.mem_cons, List.not_mem_nil, or_false] at hb
    rcases hb with rfl | rfl <;> simp only [UInt8.toNat_ofNat'] <;> omega
  · split at hb
    · simp only [List.mem_cons, List.not_mem_nil, or_false] at hb
      rcases hb with rfl | rfl | rfl <;> simp only [UInt8.toNat_ofNat'] <;> omega
    · simp only [List.mem_cons, List.not_mem_nil, or_false] at hb
      rcases hb with rfl | rfl | rfl | rfl <;> simp only [UInt8.toNat_ofNat'] <;> omega

/-- A byte below 128 among those of a character is all there is. -/
theorem encodeChar_of_mem {c d : Char} (hd : d.toNat < 128)
    (h : UInt8.ofNat d.toNat ∈ String.utf8EncodeChar c) : c = d := by
  have hsmall : (UInt8.ofNat d.toNat).toNat = d.toNat := by
    simp only [UInt8.toNat_ofNat']
    omega
  by_cases hc : c.toNat < 128
  · rw [encodeChar_of_lt hc, List.mem_singleton] at h
    have hnat := congrArg UInt8.toNat h
    rw [hsmall, UInt8.toNat_ofNat', Nat.mod_eq_of_lt (by omega)] at hnat
    exact Char.ext (UInt32.toNat_inj.mp hnat.symm)
  · have := le_of_mem_encodeChar (Nat.le_of_not_lt hc) h
    omega

/-! ### Texts -/

theorem mem_encode_iff {d : Char} (hd : d.toNat < 128) {text : List Char} :
    UInt8.ofNat d.toNat ∈ encode text ↔ d ∈ text := by
  constructor
  · intro h
    obtain ⟨c, hc, hb⟩ := List.mem_flatMap.mp h
    exact encodeChar_of_mem hd hb ▸ hc
  · intro h
    refine List.mem_flatMap.mpr ⟨d, h, ?_⟩
    rw [encodeChar_of_lt hd]
    exact List.mem_singleton_self _

theorem slash_mem_iff {text : List Char} : 47 ∈ encode text ↔ '/' ∈ text :=
  mem_encode_iff (d := '/') (by decide)

theorem length_encode {text : List Char} (h : ∀ c ∈ text, c.toNat < 128) :
    (encode text).length = text.length := by
  induction text with
  | nil => rfl
  | cons c rest ih =>
    obtain ⟨hc, hrest⟩ := List.forall_mem_cons.mp h
    rw [encode_cons, encodeChar_of_lt hc, List.singleton_append, List.length_cons, ih hrest,
      List.length_cons]

theorem encode_eq_nil_iff {text : List Char} : encode text = [] ↔ text = [] := by
  cases text with
  | nil => simp
  | cons c rest => simp [encode_cons, String.utf8EncodeChar_ne_nil]

theorem append_singleton_suffix_iff {α : Type} {front text : List α} {a b : α} :
    front ++ [a] <:+ text ++ [b] ↔ a = b ∧ front <:+ text := by
  rw [List.suffix_concat_iff]
  constructor
  · rintro (h | ⟨t, ht, hsuffix⟩)
    · simp at h
    · obtain ⟨rfl, hab⟩ := List.append_inj' ht rfl
      exact ⟨List.singleton_inj.mp hab, hsuffix⟩
  · rintro ⟨rfl, hsuffix⟩
    exact Or.inr ⟨front, rfl, hsuffix⟩

theorem encode_singleton_of_lt {d : Char} (hd : d.toNat < 128) :
    encode [d] = [UInt8.ofNat d.toNat] := by
  rw [encode_cons, encodeChar_of_lt hd]
  rfl

/-- A byte below 128 ends the bytes of a character only if that is the character of this number. -/
theorem append_singleton_suffix_encode_iff {front text : List UInt8} {c d : Char}
    (hd : d.toNat < 128) :
    front ++ [UInt8.ofNat d.toNat] <:+ text ++ encode [c] ↔ d = c ∧ front <:+ text := by
  by_cases hc : d = c
  · subst hc
    rw [encode_singleton_of_lt hd, append_singleton_suffix_iff]
    simp
  · obtain ⟨init, last, hlast⟩ : ∃ init last, encode [c] = init ++ [last] :=
      (List.eq_nil_or_concat' _).resolve_left (by simp [encode_eq_nil_iff])
    have hmem : last ∈ String.utf8EncodeChar c := by
      have : last ∈ encode [c] := by simp [hlast]
      simpa [encode_cons] using this
    rw [hlast, ← List.append_assoc, append_singleton_suffix_iff]
    constructor
    · rintro ⟨rfl, -⟩
      exact absurd (encodeChar_of_mem hd hmem).symm hc
    · rintro ⟨h, -⟩
      exact absurd h hc

/-- **A text of characters below 128 ends the bytes exactly when it ends the text.** -/
theorem suffix_iff {ending : List Char} (hsmall : ending.all (·.toNat < 128)) (text : List Char) :
    encode ending <:+ encode text ↔ ending <:+ text := by
  simp only [List.all_eq_true, decide_eq_true_eq] at hsmall
  -- from the back, as that is where both endings are compared
  induction ending using List.reverseRecOn generalizing text with
  | nil => simp
  | append_singleton front d ih =>
    have hd : d.toNat < 128 := hsmall d (by simp)
    have hfront : ∀ c ∈ front, c.toNat < 128 := fun c hc => hsmall c (by simp [hc])
    rcases List.eq_nil_or_concat' text with rfl | ⟨text, c, rfl⟩
    · simp [encode_singleton_of_lt hd]
    · rw [append_singleton_suffix_iff, ← ih text hfront, encode_append, encode_append,
        encode_singleton_of_lt hd, append_singleton_suffix_encode_iff hd]

theorem getLast?_eq_slash_iff {text : List Char} :
    (encode text).getLast? = some 47 ↔ text.getLast? = some '/' := by
  rw [← List.singleton_suffix_iff_getLast?_eq_some, ← List.singleton_suffix_iff_getLast?_eq_some]
  have hslash : ['/'].all (·.toNat < 128) := by decide
  exact suffix_iff hslash text

end Utf8

namespace Path

theorem bytes_eq (path : Path) : path.bytes = Utf8.encode path.text.toList := by
  rw [bytes, ← String.utf8Encode_toList]
  simp [List.utf8Encode, Utf8.encode, List.data_toByteArray]

end Path

theorem Utf8.encode_injective : Function.Injective Utf8.encode := by
  intro first second h
  have hbytes : (Path.mk (.ofList first)).bytes = (Path.mk (.ofList second)).bytes := by
    rw [Path.bytes_eq, Path.bytes_eq, String.toList_ofList, String.toList_ofList, h]
  have htext := String.toByteArray_inj.mp (ByteArray.ext (Array.toList_inj.mp hbytes))
  exact String.ofList_injective htext

/-! ### Segments -/

theorem notMem_of_mem_splitOn {α : Type} [BEq α] [LawfulBEq α] {separator : α}
    {text segment : List α} (h : segment ∈ text.splitOn separator) : separator ∉ segment := by
  induction text generalizing segment with
  | nil =>
    rw [List.splitOn_nil, List.mem_singleton] at h
    rw [h]
    exact List.not_mem_nil
  | cons c text ih =>
    obtain ⟨head, tail, hsplit⟩ := List.exists_cons_of_ne_nil (List.splitOn_ne_nil separator text)
    rw [List.splitOn_cons_eq_if_modifyHead, hsplit] at h
    rw [hsplit] at ih
    by_cases hc : c = separator
    · rw [if_pos (beq_iff_eq.mpr hc)] at h
      rcases List.mem_cons.mp h with rfl | hrest
      · exact List.not_mem_nil
      · exact ih hrest
    · rw [if_neg (mt beq_iff_eq.mp hc), List.modifyHead_cons] at h
      rcases List.mem_cons.mp h with rfl | htail
      · rw [List.mem_cons, not_or]
        exact ⟨Ne.symm hc, ih List.mem_cons_self⟩
      · exact ih (List.mem_cons_of_mem _ htail)

namespace Utf8

theorem encode_intercalate (segments : List (List Char)) :
    encode (['/'].intercalate segments) = [47].intercalate (segments.map encode) := by
  induction segments with
  | nil => rfl
  | cons segment rest ih =>
    cases rest with
    | nil => simp
    | cons next rest =>
      have hne : (next :: rest).map encode ≠ [] := List.cons_ne_nil _ _
      rw [List.intercalate_cons_cons, encode_append, encode_append, List.map_cons,
        List.intercalate_cons_of_ne_nil hne, ← ih]
      rfl

/-- **The segments of the bytes are the bytes of the segments.** -/
theorem splitOn_encode (text : List Char) :
    (encode text).splitOn 47 = (text.splitOn '/').map encode := by
  have hslash : ∀ bytes ∈ (text.splitOn '/').map encode, 47 ∉ bytes := by
    intro bytes hbytes
    obtain ⟨segment, hsegment, rfl⟩ := List.mem_map.mp hbytes
    exact mt slash_mem_iff.mp (notMem_of_mem_splitOn hsegment)
  have hne : (text.splitOn '/').map encode ≠ [] := by
    rw [Ne, List.map_eq_nil_iff]
    exact List.splitOn_ne_nil '/' text
  have htext : ['/'].intercalate (text.splitOn '/') = text := List.intercalate_splitOn '/'
  rw [← List.splitOn_intercalate 47 hslash hne, ← encode_intercalate, htext]

end Utf8

/-! ### Joining -/

theorem joinWith_of_complete {α : Type} [DecidableEq α] {separator : α} {dir : List α}
    (h : dir = [] ∨ dir.getLast? = some separator) (name : List α) :
    joinWith separator dir name = dir ++ name := by
  unfold joinWith
  rcases h with rfl | h
  · rfl
  · simp [h]

theorem joinWith_of_open {α : Type} [DecidableEq α] {separator : α} {dir : List α}
    (h : ¬ (dir = [] ∨ dir.getLast? = some separator)) (name : List α) :
    joinWith separator dir name = dir ++ separator :: name := by
  unfold joinWith
  rw [if_neg]
  cases hlast : dir.getLast? with
  | none => exact absurd (Or.inl (List.getLast?_eq_none_iff.mp hlast)) h
  | some last =>
    rw [hlast] at h
    simpa using fun heq => h (Or.inr (congrArg some heq))

/-- The segments of a joined path are those of the directory and the name; an empty one at the end of
the directory is left out. -/
theorem splitOn_joinWith {α : Type} [DecidableEq α] [BEq α] [LawfulBEq α] {separator : α}
    {dir name : List α} (hempty : dir ≠ []) (hname : separator ∉ name) :
    ∃ first rest idle, (joinWith separator dir name).splitOn separator = first :: (rest ++ [name]) ∧
      dir.splitOn separator = first :: (rest ++ idle) ∧ (idle = [] ∨ idle = [[]]) := by
  have hsingle := List.splitOn_eq_singleton hname
  by_cases hlast : dir.getLast? = some separator
  · obtain ⟨init, rfl⟩ := List.getLast?_eq_some_iff.mp hlast
    obtain ⟨first, rest, hinit⟩ := List.exists_cons_of_ne_nil (List.splitOn_ne_nil separator init)
    refine ⟨first, rest, [[]], ?_, ?_, Or.inr rfl⟩
    · rw [joinWith_of_complete (Or.inr hlast), List.append_assoc, List.singleton_append,
        List.splitOn_append_cons_self, hsingle, hinit, List.cons_append]
    · rw [List.splitOn_append_cons_self, List.splitOn_nil, hinit, List.cons_append]
  · obtain ⟨first, rest, hdir⟩ := List.exists_cons_of_ne_nil (List.splitOn_ne_nil separator dir)
    refine ⟨first, rest, [], ?_, ?_, Or.inl rfl⟩
    · rw [joinWith_of_open (not_or.mpr ⟨hempty, hlast⟩), List.splitOn_append_cons_self, hsingle,
        hdir, List.cons_append]
    · rw [hdir, List.append_nil]

theorem joinWith_encode (dir name : List Char) :
    joinWith 47 (Utf8.encode dir) (Utf8.encode name) = Utf8.encode (joinWith '/' dir name) := by
  have hiff : (Utf8.encode dir = [] ∨ (Utf8.encode dir).getLast? = some 47) ↔
      (dir = [] ∨ dir.getLast? = some '/') :=
    or_congr Utf8.encode_eq_nil_iff Utf8.getLast?_eq_slash_iff
  by_cases h : dir = [] ∨ dir.getLast? = some '/'
  · rw [joinWith_of_complete h, joinWith_of_complete (hiff.mpr h), Utf8.encode_append]
  · rw [joinWith_of_open h, joinWith_of_open (mt hiff.mp h), Utf8.encode_append, Utf8.encode_cons]
    rfl

/-- **Joining texts and joining bytes is the same.** -/
theorem Path.bytes_join (dir : Path) (name : String) :
    (dir.join name).bytes = joinWith 47 dir.bytes (Utf8.encode name.toList) := by
  rw [bytes_eq, bytes_eq, joinWith_encode, join, String.toList_ofList]

end SchemaEnums
