import Mathlib.Algebra.Group.Nat.Defs
import Mathlib.Data.List.Nodup
import Mathlib.Data.List.Perm.Subperm
import SchemaEnums.Output
import SchemaEnums.Proofs.FileSystem.Entries
import SchemaEnums.Proofs.Path.Bytes

/-!
# Names for temporary files

Temporary files are numbered, and the first number is taken whose name is free.  A directory with
`n` entries leaves one of the first `n + 1` names free, as long as these are short enough.

* `Output.temporaryName_injective`: different numbers give different names.
* `Output.isSome_freshName?_of_length_lt`: **a directory of fewer than `10 ^ 243` entries has a free
  temporary name.**
* `Output.isSome_freshName?_put`: a free temporary name is still free when another name is put.
-/

namespace SchemaEnums

namespace Output

variable {entries : Entries} {name fresh : Name} {n : Nat}

/-- The digits of the `n`-th temporary name, of which there are at least six. -/
def counter (n : Nat) : List Char :=
  List.replicate (6 - (Nat.toDigits 10 n).length) '0' ++ Nat.toDigits 10 n

theorem temporaryName_eq (n : Nat) :
    temporaryName n = Utf8.encode (".enumgen".toList ++ counter n ++ ".tmp".toList) := by
  unfold temporaryName counter Utf8.encode
  simp only [List.append_assoc]

/-- Leading zeros do not change a number. -/
theorem counter_injective : Function.Injective counter := by
  intro first second h
  have hvalue (n : Nat) : Nat.ofDigitChars 10 (counter n) 0 = n := by
    rw [counter, Nat.ofDigitChars_append, Nat.ofDigitChars_replicate_zero, Nat.mul_zero,
      Nat.ofDigitChars_ten_toDigits]
  rw [← hvalue first, h, hvalue]

theorem temporaryName_injective : Function.Injective temporaryName := by
  intro first second h
  rw [temporaryName_eq, temporaryName_eq] at h
  have hcounters := List.append_cancel_right (Utf8.encode_injective h)
  exact counter_injective (List.append_cancel_left hcounters)

/-! ### Names that are allowed -/

/-- Whether a character is a single byte and neither zero nor a slash. -/
def Plain (c : Char) : Prop :=
  c.toNat < 128 ∧ c ≠ '\x00' ∧ c ≠ '/'

instance (c : Char) : Decidable (Plain c) := by
  unfold Plain
  infer_instance

theorem plain_of_isDigit {c : Char} (h : c.isDigit) : Plain c := by
  have hrange : 48 ≤ c.toNat ∧ c.toNat ≤ 57 := Char.isDigit_iff_toNat.mp h
  refine ⟨by omega, ?_, ?_⟩
  · rintro rfl
    exact absurd hrange.1 (by decide)
  · rintro rfl
    exact absurd hrange.1 (by decide)

theorem plain_of_mem_counter {c : Char} (h : c ∈ counter n) : Plain c := by
  rcases List.mem_append.mp h with hzero | hdigit
  · rw [List.eq_of_mem_replicate hzero]
    decide
  · exact plain_of_isDigit (Nat.isDigit_of_mem_toDigits (by decide) (by decide) hdigit)

theorem length_counter_le (h : n < 10 ^ 243) : (counter n).length ≤ 243 := by
  have hdigits : (Nat.toDigits 10 n).length ≤ 243 :=
    (Nat.length_toDigits_le_iff (by decide) (by decide)).mpr h
  rw [counter, List.length_append, List.length_replicate]
  omega

theorem allowed_temporaryName (h : n < 10 ^ 243) : Name.Allowed (temporaryName n) := by
  have hends : (".enumgen".toList ++ ".tmp".toList).all (Plain ·) := by decide
  have hplain : ∀ c ∈ ".enumgen".toList ++ counter n ++ ".tmp".toList, Plain c := by
    intro c hc
    simp only [List.mem_append] at hc
    rcases hc with (hfront | hcounter) | hbehind
    · exact of_decide_eq_true (List.all_eq_true.mp hends c (List.mem_append_left _ hfront))
    · exact plain_of_mem_counter hcounter
    · exact of_decide_eq_true (List.all_eq_true.mp hends c (List.mem_append_right _ hbehind))
  have hlength : (temporaryName n).length = (counter n).length + 12 := by
    rw [temporaryName_eq, Utf8.length_encode fun c hc => (hplain c hc).1]
    simp only [List.length_append]
    exact Nat.add_right_comm 8 _ 4 ▸ Nat.add_comm _ _
  refine ⟨?_, ?_, ?_, ?_⟩
  · intro hmem
    have hshort : ∀ bytes ∈ ([[], [46], [46, 46]] : List (List UInt8)), bytes.length ≤ 2 := by
      decide
    have := hshort _ hmem
    omega
  · rw [temporaryName_eq]
    exact fun hzero => (hplain _ ((Utf8.mem_encode_iff (d := '\x00') (by decide)).mp hzero)).2.1 rfl
  · rw [temporaryName_eq]
    exact fun hslash => (hplain _ (Utf8.slash_mem_iff.mp hslash)).2.2 rfl
  · have := length_counter_le h
    omega

/-! ### A free name -/

/-- The names that are tried in a directory. -/
def candidates (entries : Entries) : List Name :=
  (List.range (entries.length + 1)).filterMap fun n => Name.ofBytes? (temporaryName n)

theorem freshName?_eq (entries : Entries) :
    freshName? entries = (candidates entries).find? fun name => (entries.lookup name).isNone := rfl

theorem mem_candidates_iff :
    name ∈ candidates entries ↔ ∃ n ≤ entries.length, name.val = temporaryName n := by
  simp only [candidates, List.mem_filterMap, List.mem_range, Nat.lt_succ_iff,
    Name.ofBytes?_eq_some_iff, eq_comm (a := name.val)]

theorem isSome_freshName?_iff :
    (freshName? entries).isSome ↔
      ∃ n ≤ entries.length, ∃ name : Name,
        name.val = temporaryName n ∧ entries.lookup name = none := by
  rw [freshName?_eq, List.find?_isSome]
  simp only [mem_candidates_iff, Option.isNone_iff_eq_none]
  constructor
  · rintro ⟨name, ⟨n, hn, hname⟩, hfree⟩
    exact ⟨n, hn, name, hname, hfree⟩
  · rintro ⟨n, hn, name, hname, hfree⟩
    exact ⟨name, ⟨n, hn, hname⟩, hfree⟩

theorem exists_temporaryName_of_freshName? (h : freshName? entries = some fresh) :
    ∃ n ≤ entries.length, fresh.val = temporaryName n :=
  mem_candidates_iff.mp (List.mem_of_find?_eq_some h)

theorem lookup_of_freshName? (h : freshName? entries = some fresh) :
    entries.lookup fresh = none := by
  rw [freshName?_eq] at h
  have := List.find?_some h
  simpa using this

/-- **A directory of fewer than `10 ^ 243` entries has a free temporary name**: one of the first
names is left over, as there is one more of them than entries. -/
theorem isSome_freshName?_of_length_lt (h : entries.length < 10 ^ 243) :
    (freshName? entries).isSome := by
  by_contra hnone
  have htaken : (List.range (entries.length + 1)).map temporaryName ⊆
      entries.map (·.1.val) := by
    intro bytes hbytes
    obtain ⟨n, hn, rfl⟩ := List.mem_map.mp hbytes
    have hle : n ≤ entries.length := Nat.le_of_lt_succ (List.mem_range.mp hn)
    have hallowed := allowed_temporaryName (Nat.lt_of_le_of_lt hle h)
    cases hlookup : entries.lookup ⟨temporaryName n, hallowed⟩ with
    | none => exact absurd (isSome_freshName?_iff.mpr ⟨n, hle, _, rfl, hlookup⟩) hnone
    | some entry =>
      exact List.mem_map.mpr ⟨_, Entries.mem_of_lookup hlookup, rfl⟩
  have hnodup : ((List.range (entries.length + 1)).map temporaryName).Nodup :=
    List.nodup_range.map temporaryName_injective
  have hlength := (hnodup.subperm htaken).length_le
  rw [List.length_map, List.length_map, List.length_range] at hlength
  omega

theorem isSome_freshName?_put (h : freshName? entries = some fresh) (hne : fresh ≠ name)
    (entry : Entry) : (freshName? (Entries.put name entry entries)).isSome := by
  obtain ⟨n, hn, hfresh⟩ := exists_temporaryName_of_freshName? h
  refine isSome_freshName?_iff.mpr
    ⟨n, hn.trans (Entries.length_le_length_put name entry entries), fresh, hfresh, ?_⟩
  rw [Entries.lookup_put_of_ne hne]
  exact lookup_of_freshName? h

end Output

end SchemaEnums
