import SchemaEnums.Proofs.Json.Readable

/-!
# The keys of a document

A member that is added to an object under a key that is there takes the place of the old one.  So an
object that has been read has each of its keys once, however often they are repeated in the text.

* `DistinctKeys`: each object in a value has each of its keys once.
* `DistinctKeys.position_eq`: a key stands at one position.
* `distinctKeys_ofPairs`: **adding members one by one keeps the keys distinct**, and
  `ofPairs_eq_object`: members that have distinct keys stay as they are.
* `distinctKeys_of_parse`: **a document that has been read has distinct keys** everywhere.
-/

namespace SchemaEnums.Json

/-- Each object in a value has each of its keys once. -/
inductive DistinctKeys : Json → Prop
  | null : DistinctKeys .null
  | bool (value : Bool) : DistinctKeys (.bool value)
  | number (value : Number) : DistinctKeys (.number value)
  | string (text : String) : DistinctKeys (.string text)
  | array {elements : List Json} (helements : ∀ element ∈ elements, DistinctKeys element) :
      DistinctKeys (.array elements)
  | object {members : List (String × Json)} (hkeys : (members.map Prod.fst).Nodup)
      (hmembers : ∀ member ∈ members, DistinctKeys member.2) : DistinctKeys (.object members)

attribute [simp] DistinctKeys.null DistinctKeys.bool DistinctKeys.number DistinctKeys.string

variable {members pairs : List (String × Json)} {key : String} {value : Json}

theorem DistinctKeys.of_mem (h : DistinctKeys (.object members)) {member : String × Json}
    (hmember : member ∈ members) : member.2.DistinctKeys := by
  cases h with
  | object hkeys hmembers => exact hmembers member hmember

theorem DistinctKeys.nodup_keys (h : DistinctKeys (.object members)) :
    (members.map Prod.fst).Nodup := by
  cases h with
  | object hkeys _ => exact hkeys

theorem DistinctKeys.of_lookup (h : DistinctKeys (.object members))
    (hlookup : members.lookup key = some value) : value.DistinctKeys := by
  obtain ⟨front, behind, rfl, -⟩ := List.lookup_eq_some_iff.mp hlookup
  exact h.of_mem (List.mem_append_right front List.mem_cons_self)

theorem DistinctKeys.position_eq (h : DistinctKeys (.object members)) {position other : Nat}
    {found : Json} (hvalue : members[position]? = some (key, value))
    (hfound : members[other]? = some (key, found)) : position = other ∧ value = found := by
  cases h with
  | object hkeys hmembers =>
    have hlength : position < (members.map Prod.fst).length := by
      rw [List.length_map]
      exact (List.getElem?_eq_some_iff.mp hvalue).1
    have hsame : (members.map Prod.fst)[position]? = (members.map Prod.fst)[other]? := by
      rw [List.getElem?_map, List.getElem?_map, hvalue, hfound]
      rfl
    obtain rfl := (List.getElem?_inj hlength hkeys).mp hsame
    exact ⟨rfl, congrArg Prod.snd (Option.some.inj (hvalue.symm.trans hfound))⟩

theorem lookup_eq_some_iff_mem (h : (members.map Prod.fst).Nodup) :
    members.lookup key = some value ↔ (key, value) ∈ members := by
  constructor
  · intro hlookup
    obtain ⟨front, behind, rfl, -⟩ := List.lookup_eq_some_iff.mp hlookup
    exact List.mem_append_right front List.mem_cons_self
  · intro hmem
    obtain ⟨front, behind, rfl⟩ := List.append_of_mem hmem
    rw [List.map_append, List.map_cons, List.nodup_append] at h
    obtain ⟨-, -, hdisjoint⟩ := h
    refine List.lookup_eq_some_iff.mpr ⟨front, behind, rfl, ?_⟩
    intro member hfront
    have hne := hdisjoint member.1 (List.mem_map_of_mem hfront) key List.mem_cons_self
    simpa using Ne.symm hne

@[simp]
theorem distinctKeys_object_iff :
    DistinctKeys (.object members) ↔
      (members.map Prod.fst).Nodup ∧ ∀ member ∈ members, member.2.DistinctKeys := by
  constructor
  · rintro ⟨⟩
    exact ⟨‹_›, ‹_›⟩
  · rintro ⟨hkeys, hmembers⟩
    exact .object hkeys hmembers

@[simp]
theorem distinctKeys_array_iff {elements : List Json} :
    DistinctKeys (.array elements) ↔ ∀ element ∈ elements, element.DistinctKeys := by
  constructor
  · rintro ⟨⟩
    assumption
  · exact .array

/-! ### Adding members -/

theorem map_fst_insertMember (members : List (String × Json)) (key : String) (value : Json) :
    (insertMember members key value).map Prod.fst =
      if key ∈ members.map Prod.fst then members.map Prod.fst
      else members.map Prod.fst ++ [key] := by
  induction members with
  | nil => simp [insertMember]
  | cons head rest ih =>
    obtain ⟨k, v⟩ := head
    by_cases hk : k = key
    · simp [insertMember, hk]
    · simp only [insertMember, if_neg hk, List.map_cons, ih, List.mem_cons, Ne.symm hk, false_or]
      split <;> rfl

theorem eq_or_mem_of_mem_insertMember {member : String × Json}
    (h : member ∈ insertMember members key value) : member = (key, value) ∨ member ∈ members := by
  induction members with
  | nil => exact Or.inl (List.mem_singleton.mp h)
  | cons head rest ih =>
    obtain ⟨k, v⟩ := head
    rw [insertMember] at h
    split at h
    · rename_i hk
      rcases List.mem_cons.mp h with rfl | hrest
      · exact Or.inl (by rw [hk])
      · exact Or.inr (List.mem_cons_of_mem _ hrest)
    · rcases List.mem_cons.mp h with rfl | hrest
      · exact Or.inr List.mem_cons_self
      · exact (ih hrest).imp_right (List.mem_cons_of_mem _)

theorem DistinctKeys.insertMember (h : DistinctKeys (.object members)) (key : String)
    (hvalue : value.DistinctKeys) : DistinctKeys (.object (insertMember members key value)) := by
  cases h with
  | object hkeys hmembers =>
    refine .object ?_ ?_
    · rw [map_fst_insertMember]
      split
      · exact hkeys
      · rename_i hnew
        refine List.nodup_append.mpr ⟨hkeys, List.pairwise_singleton _ key, ?_⟩
        intro k hk other hother
        rw [List.mem_singleton.mp hother]
        exact ne_of_mem_of_not_mem hk hnew
    · intro member hmember
      rcases eq_or_mem_of_mem_insertMember hmember with rfl | hold
      · exact hvalue
      · exact hmembers member hold

/-- **Adding members one by one keeps the keys distinct.** -/
theorem distinctKeys_ofPairs (h : ∀ pair ∈ pairs, pair.2.DistinctKeys) :
    (ofPairs pairs).DistinctKeys := by
  have hall : ∀ members, DistinctKeys (.object members) → DistinctKeys (.object
      (pairs.foldl (fun members pair => insertMember members pair.1 pair.2) members)) := by
    induction pairs with
    | nil => exact fun members hmembers => hmembers
    | cons pair rest ih =>
      intro members hmembers
      have hpair := hmembers.insertMember pair.1 (h pair List.mem_cons_self)
      exact ih (fun other hother => h other (List.mem_cons_of_mem _ hother)) _ hpair
  exact hall [] (.object List.nodup_nil nofun)

theorem exists_ofPairs_eq (pairs : List (String × Json)) :
    ∃ members, ofPairs pairs = .object members ∧ ∀ member ∈ members, member ∈ pairs := by
  have hall : ∀ members : List (String × Json), ∀ member ∈ pairs.foldl
      (fun members pair => insertMember members pair.1 pair.2) members,
      member ∈ members ∨ member ∈ pairs := by
    induction pairs with
    | nil => exact fun members member hmember => Or.inl hmember
    | cons pair rest ih =>
      intro members member hmember
      rcases ih _ member hmember with hadded | hrest
      · rcases eq_or_mem_of_mem_insertMember hadded with rfl | hold
        · exact Or.inr List.mem_cons_self
        · exact Or.inl hold
      · exact Or.inr (List.mem_cons_of_mem _ hrest)
  exact ⟨_, rfl, fun member hmember => (hall [] member hmember).resolve_left List.not_mem_nil⟩

theorem insertMember_of_notMem (h : key ∉ members.map Prod.fst) :
    insertMember members key value = members ++ [(key, value)] := by
  induction members with
  | nil => rfl
  | cons head rest ih =>
    rw [List.map_cons, List.mem_cons, not_or] at h
    rw [insertMember, if_neg (Ne.symm h.1), ih h.2, List.cons_append]

/-- **Members with distinct keys are an object as they are.** -/
theorem ofPairs_eq_object (h : (pairs.map Prod.fst).Nodup) : ofPairs pairs = .object pairs := by
  have hall : ∀ members : List (String × Json), ((members ++ pairs).map Prod.fst).Nodup →
      pairs.foldl (fun members pair => insertMember members pair.1 pair.2) members =
        members ++ pairs := by
    clear h
    induction pairs with
    | nil => exact fun members _ => (List.append_nil members).symm
    | cons pair rest ih =>
      intro members hdistinct
      have hnew : pair.1 ∉ members.map Prod.fst := by
        rw [List.map_append, List.map_cons, List.nodup_append] at hdistinct
        exact fun hmem => hdistinct.2.2 _ hmem _ List.mem_cons_self rfl
      rw [List.append_cons] at hdistinct
      rw [List.foldl_cons, insertMember_of_notMem hnew, ih _ hdistinct, ← List.append_cons]
  rw [ofPairs, hall [] h, List.nil_append]

/-! ### Reading -/

theorem Readable.distinctKeys {brackets : Nat} {json : Json} (h : Readable brackets json) :
    json.DistinctKeys := by
  induction h with
  | null => exact .null
  | bool value => exact .bool value
  | number value => exact .number value
  | string text => exact .string text
  | array _ ih => exact .array ih
  | object _ ih => exact distinctKeys_ofPairs ih

/-- **A document that has been read has distinct keys** everywhere. -/
theorem distinctKeys_of_parse {text : String} {json : Json} (h : parse text = .ok json) :
    json.DistinctKeys :=
  (readable_of_parse h).distinctKeys

end SchemaEnums.Json
