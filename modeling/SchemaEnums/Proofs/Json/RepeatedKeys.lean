import Mathlib.Data.List.Induction
import SchemaEnums.Proofs.Enumeration
import SchemaEnums.Proofs.Json.RoundTrip

/-!
# Keys that are repeated

In the text of an object a key may be repeated.  The object that is read has it once: at the place
where it is written first, with the value that is written last.

* `FirstAt`, `LastWith`, `MergedAt`: where a key is written first, and what is written last.
* `enumerates_insertMember`: **one more member keeps the object merged**, whether its key is new or
  not.
* `exists_ofPairs`: **so the object that pairs spell out holds each key once**, in the order in which
  the keys are written first.
* `memberChars_eq`: the text of an object is the text of its members, with commas between them.
-/

namespace SchemaEnums.Json

variable {pairs members : List (String × Json)} {key other : String} {value found : Json}
  {position place : Nat}

/-- A key is written first at a position. -/
def FirstAt (pairs : List (String × Json)) (position : Nat) (key : String) : Prop :=
  (pairs.map Prod.fst)[position]? = some key ∧ key ∉ (pairs.map Prod.fst).take position

/-- The last value that is written for a key. -/
def LastWith (pairs : List (String × Json)) (key : String) (value : Json) : Prop :=
  ∃ front behind, pairs = front ++ (key, value) :: behind ∧ key ∉ behind.map Prod.fst

/-- A member whose key is written first at a position, with the value that is written last for it. -/
def MergedAt (pairs : List (String × Json)) (position : Nat) (member : String × Json) : Prop :=
  FirstAt pairs position member.1 ∧ LastWith pairs member.1 member.2

/-! ### First and last occurrences -/

theorem FirstAt.lt_length (h : FirstAt pairs position key) : position < pairs.length := by
  have hlt := (List.getElem?_eq_some_iff.mp h.1).1
  rwa [List.length_map] at hlt

theorem FirstAt.mem (h : FirstAt pairs position key) : key ∈ pairs.map Prod.fst :=
  List.mem_of_getElem? h.1

theorem FirstAt.not_lt (h : FirstAt pairs position key) (hother : FirstAt pairs place key) :
    ¬ position < place := by
  intro hlt
  refine hother.2 (List.mem_iff_getElem?.mpr ⟨position, ?_⟩)
  rw [List.getElem?_take_of_lt hlt]
  exact h.1

theorem FirstAt.unique (h : FirstAt pairs position key) (hother : FirstAt pairs place key) :
    position = place :=
  Nat.le_antisymm (Nat.le_of_not_lt (hother.not_lt h)) (Nat.le_of_not_lt (h.not_lt hother))

/-- One more pair comes first for its key if the key is new, and for no other one. -/
theorem firstAt_concat :
    FirstAt (pairs ++ [(key, value)]) position other ↔
      FirstAt pairs position other ∨
        position = pairs.length ∧ other = key ∧ key ∉ pairs.map Prod.fst := by
  have hlength : (pairs.map Prod.fst).length = pairs.length := List.length_map _
  rw [FirstAt, FirstAt, List.map_append, List.map_singleton]
  rcases Nat.lt_trichotomy position pairs.length with hlt | heq | hgt
  · rw [List.getElem?_append_left (by omega), List.take_append_of_le_length (by omega)]
    exact (or_iff_left fun hnew => Nat.ne_of_lt hlt hnew.1).symm
  · subst heq
    have hnone : ¬ FirstAt pairs pairs.length other := fun h => Nat.lt_irrefl _ h.lt_length
    have hfresh : key = other ∧ other ∉ pairs.map Prod.fst ↔ other = key ∧ key ∉ pairs.map Prod.fst := by
      constructor
      · rintro ⟨rfl, hnot⟩
        exact ⟨rfl, hnot⟩
      · rintro ⟨rfl, hnot⟩
        exact ⟨rfl, hnot⟩
    rw [← hlength, List.getElem?_concat_length, List.take_left, Option.some.injEq, hfresh, hlength]
    simp only [true_and]
    exact (or_iff_right hnone).symm
  · refine iff_of_false ?_ ?_
    · rintro ⟨hkey, -⟩
      have hlt := (List.getElem?_eq_some_iff.mp hkey).1
      rw [List.length_append, hlength, List.length_singleton] at hlt
      omega
    · rintro (hfirst | ⟨heq, -⟩)
      · exact Nat.lt_asymm hgt (FirstAt.lt_length hfirst)
      · exact Nat.ne_of_gt hgt heq

/-- One more pair is the last one for its key, and does not matter for the others. -/
theorem lastWith_concat :
    LastWith (pairs ++ [(key, value)]) other found ↔
      other = key ∧ found = value ∨ other ≠ key ∧ LastWith pairs other found := by
  constructor
  · rintro ⟨front, behind, hpairs, hlast⟩
    rcases List.eq_nil_or_concat behind with rfl | ⟨middle, pair, rfl⟩
    · obtain ⟨-, hpair⟩ := List.append_inj' hpairs rfl
      cases hpair
      exact Or.inl ⟨rfl, rfl⟩
    · rw [List.concat_eq_append, ← List.cons_append, ← List.append_assoc] at hpairs
      obtain ⟨hfront, hpair⟩ := List.append_inj' hpairs rfl
      cases hpair
      rw [List.concat_eq_append, List.map_append, List.mem_append, not_or] at hlast
      obtain ⟨hmiddle, hne⟩ := hlast
      exact Or.inr ⟨fun heq => hne (List.mem_singleton.mpr heq), front, middle, hfront, hmiddle⟩
  · rintro (⟨rfl, rfl⟩ | ⟨hne, front, behind, rfl, hlast⟩)
    · exact ⟨pairs, [], rfl, List.not_mem_nil⟩
    · refine ⟨front, behind ++ [(key, value)], by simp, ?_⟩
      rw [List.map_append, List.mem_append, not_or]
      exact ⟨hlast, fun heq => hne (List.mem_singleton.mp heq)⟩

theorem exists_lastWith (h : key ∈ pairs.map Prod.fst) : ∃ value, LastWith pairs key value := by
  induction pairs using List.reverseRecOn with
  | nil => cases h
  | append_singleton front pair ih =>
    obtain ⟨last, value⟩ := pair
    by_cases hkey : key = last
    · exact ⟨value, lastWith_concat.mpr (Or.inl ⟨hkey, rfl⟩)⟩
    · have hfront : key ∈ front.map Prod.fst := by
        rw [List.map_append, List.mem_append] at h
        exact h.resolve_right fun hlast => hkey (List.mem_singleton.mp hlast)
      obtain ⟨found, hfound⟩ := ih hfront
      exact ⟨found, lastWith_concat.mpr (Or.inr ⟨hkey, hfound⟩)⟩

theorem exists_firstAt (h : key ∈ pairs.map Prod.fst) : ∃ position, FirstAt pairs position key := by
  induction pairs using List.reverseRecOn with
  | nil => cases h
  | append_singleton front pair ih =>
    obtain ⟨last, value⟩ := pair
    by_cases hfront : key ∈ front.map Prod.fst
    · obtain ⟨position, hfirst⟩ := ih hfront
      exact ⟨position, firstAt_concat.mpr (Or.inl hfirst)⟩
    · rw [List.map_append, List.mem_append] at h
      obtain rfl := List.mem_singleton.mp (h.resolve_left hfront)
      exact ⟨front.length, firstAt_concat.mpr (Or.inr ⟨rfl, rfl, hfront⟩)⟩

/-! ### Adding members -/

theorem insertMember_of_mem (hdistinct : (members.map Prod.fst).Nodup)
    (h : key ∈ members.map Prod.fst) :
    insertMember members key value =
      members.map fun member => if member.1 = key then (key, value) else member := by
  induction members with
  | nil => cases h
  | cons head rest ih =>
    obtain ⟨k, v⟩ := head
    obtain ⟨hnotMem, hdistinct⟩ := List.nodup_cons.mp hdistinct
    rw [insertMember, List.map_cons]
    by_cases hk : k = key
    · subst hk
      have hrest : rest.map (fun member => if member.1 = k then (k, value) else member) = rest := by
        refine (List.map_congr_left fun member hmember => if_neg ?_).trans (List.map_id rest)
        exact ne_of_mem_of_not_mem (List.mem_map_of_mem hmember) hnotMem
      rw [if_pos rfl, if_pos rfl, hrest]
    · have hmem : key ∈ rest.map Prod.fst := (List.mem_cons.mp h).resolve_left (Ne.symm hk)
      rw [if_neg hk, if_neg hk, ih hdistinct hmem]

theorem nodup_keys_of_enumerates (h : Enumerates Nat.lt (MergedAt pairs) members) :
    (members.map Prod.fst).Nodup := by
  refine (h.map Prod.fst).nodup Nat.lt_irrefl ?_
  rintro position place _ ⟨member, ⟨hfirst, -⟩, rfl⟩ ⟨other, ⟨hother, -⟩, hkey⟩
  rw [← hkey] at hother
  exact hfirst.unique hother

theorem mem_keys_iff_of_enumerates (h : Enumerates Nat.lt (MergedAt pairs) members) :
    key ∈ members.map Prod.fst ↔ key ∈ pairs.map Prod.fst := by
  constructor
  · intro hkey
    obtain ⟨member, hmember, rfl⟩ := List.mem_map.mp hkey
    obtain ⟨position, hfirst, -⟩ := h.mem_iff.mp hmember
    exact hfirst.mem
  · intro hkey
    obtain ⟨position, hfirst⟩ := exists_firstAt hkey
    obtain ⟨value, hlast⟩ := exists_lastWith hkey
    exact List.mem_map.mpr ⟨(key, value), h.mem_iff.mpr ⟨position, hfirst, hlast⟩, rfl⟩

theorem enumerates_insertMember_of_notMem (h : Enumerates Nat.lt (MergedAt pairs) members)
    (hkey : key ∉ pairs.map Prod.fst) (value : Json) :
    Enumerates Nat.lt (MergedAt (pairs ++ [(key, value)])) (insertMember members key value) := by
  rw [insertMember_of_notMem (mt (mem_keys_iff_of_enumerates h).mp hkey)]
  obtain ⟨listed, hascending, hmem, rfl⟩ := h
  refine ⟨listed ++ [(pairs.length, (key, value))], ?_, ?_, by simp⟩
  · refine List.pairwise_append.mpr ⟨hascending, List.pairwise_singleton _ _, ?_⟩
    intro entry hentry last hlast
    rw [List.mem_singleton.mp hlast]
    exact ((hmem entry.1 entry.2).mp hentry).1.lt_length
  · rintro position ⟨other, found⟩
    rw [List.mem_append, hmem, List.mem_singleton, Prod.mk.injEq, Prod.mk.injEq, MergedAt, MergedAt,
      firstAt_concat, lastWith_concat]
    have hne (hfirst : FirstAt pairs position other) : other ≠ key :=
      ne_of_mem_of_not_mem hfirst.mem hkey
    have hnone (heq : position = pairs.length) : ¬ FirstAt pairs position other :=
      fun hfirst => Nat.ne_of_lt hfirst.lt_length heq
    tauto

theorem enumerates_insertMember_of_mem (h : Enumerates Nat.lt (MergedAt pairs) members)
    (hkey : key ∈ pairs.map Prod.fst) (value : Json) :
    Enumerates Nat.lt (MergedAt (pairs ++ [(key, value)])) (insertMember members key value) := by
  rw [insertMember_of_mem (nodup_keys_of_enumerates h) ((mem_keys_iff_of_enumerates h).mpr hkey)]
  obtain ⟨old, hold⟩ := exists_lastWith hkey
  refine (h.map _).congr ?_
  rintro position ⟨other, found⟩
  rw [MergedAt, firstAt_concat, lastWith_concat]
  constructor
  · rintro ⟨member, ⟨hfirst, hlast⟩, hmember⟩
    by_cases hsame : member.1 = key
    · rw [if_pos hsame] at hmember
      cases hmember
      exact ⟨Or.inl (hsame ▸ hfirst), Or.inl ⟨rfl, rfl⟩⟩
    · rw [if_neg hsame] at hmember
      cases hmember
      exact ⟨Or.inl hfirst, Or.inr ⟨hsame, hlast⟩⟩
  · rintro ⟨hfirst | ⟨-, -, hnew⟩, hlast⟩
    · rcases hlast with ⟨heq, hfound⟩ | ⟨hne, hlast⟩
      · dsimp only at heq hfound hfirst
        subst heq hfound
        exact ⟨(other, old), ⟨hfirst, hold⟩, (if_pos rfl).symm⟩
      · exact ⟨(other, found), ⟨hfirst, hlast⟩, (if_neg hne).symm⟩
    · exact absurd hkey hnew

/-- **One more member keeps the object merged.** -/
theorem enumerates_insertMember (h : Enumerates Nat.lt (MergedAt pairs) members) (key : String)
    (value : Json) :
    Enumerates Nat.lt (MergedAt (pairs ++ [(key, value)])) (insertMember members key value) := by
  by_cases hkey : key ∈ pairs.map Prod.fst
  · exact enumerates_insertMember_of_mem h hkey value
  · exact enumerates_insertMember_of_notMem h hkey value

/-- **The object that pairs spell out holds each key once**, in the order in which the keys are
written first, and with the values that are written last. -/
theorem exists_ofPairs (pairs : List (String × Json)) :
    ∃ members, ofPairs pairs = .object members ∧ Enumerates Nat.lt (MergedAt pairs) members := by
  have hall : ∀ front members, Enumerates Nat.lt (MergedAt front) members →
      Enumerates Nat.lt (MergedAt (front ++ pairs))
        (pairs.foldl (fun members pair => insertMember members pair.1 pair.2) members) := by
    induction pairs with
    | nil =>
      intro front members hmembers
      rw [List.append_nil]
      exact hmembers
    | cons pair rest ih =>
      intro front members hmembers
      rw [List.append_cons]
      exact ih _ _ (enumerates_insertMember hmembers pair.1 pair.2)
  have hnil : Enumerates Nat.lt (MergedAt []) [] :=
    ⟨[], List.Pairwise.nil, by simp [MergedAt, FirstAt], rfl⟩
  exact ⟨_, rfl, hall [] [] hnil⟩

/-! ### The text of an object -/

theorem memberChars_eq (members : List (String × Json)) :
    memberChars members =
      [','].intercalate (members.map fun member =>
        StringLiteral.chars member.1.toList ++ ':' :: member.2.chars) ++ ['}'] := by
  induction members with
  | nil => rfl
  | cons member rest ih =>
    obtain ⟨key, value⟩ := member
    cases rest with
    | nil =>
      rw [memberChars]
      simp [List.intercalate]
    | cons next rest =>
      rw [memberChars, ih]
      · simp [List.intercalate]
      · exact List.cons_ne_nil next rest

end SchemaEnums.Json
