import SchemaEnums.Schema

/-!
# What a schema is

The kinds of schemas are said here by their members alone, and `Schema.classify` is shown to tell
them apart.

* `ObjectTyped`, `HasProperties`: the schema of objects, and with its properties.
* `IsEnum`: a schema of no objects that lists its values, which are strings.
* `Malformed`: the schema of objects without properties, or a schema of no objects whose `enum` is
  neither null nor an array of strings.
* `classify_eq_object_iff`, `classify_eq_enumeration_iff`, `classify_eq_error_iff`: **each kind is
  what `classify` says**.
-/

namespace SchemaEnums

/-- The member of a value under a key; only objects have members. -/
def Json.member? (key : String) : Json → Option Json
  | .object members => members.lookup key
  | _ => none

namespace Schema

/-- The schema of objects: its `type` is the text `object`. -/
def ObjectTyped (node : Json) : Prop :=
  node.member? "type" = some (.string "object")

/-- The schema of objects with the given properties. -/
def HasProperties (node : Json) (properties : List (String × Json)) : Prop :=
  ObjectTyped node ∧ node.member? "properties" = some (.object properties)

/-- A schema of no objects whose `enum` is the array of the given strings, which is not empty. -/
def IsEnum (node : Json) (members : List String) : Prop :=
  ¬ ObjectTyped node ∧ members ≠ [] ∧ node.member? "enum" = some (.array (members.map .string))

/-- A schema that is none: one of objects whose `properties` are missing or no object, or one of no
objects whose `enum` is there, not null, and no array of strings. -/
def Malformed (node : Json) : Prop :=
  (ObjectTyped node ∧ ∀ properties, node.member? "properties" ≠ some (.object properties)) ∨
    (¬ ObjectTyped node ∧ ∃ found, node.member? "enum" = some found ∧ found ≠ .null ∧
      ∀ members : List String, found ≠ .array (members.map .string))

/-! ### The texts of an `enum` -/

theorem strings_eq_ok_iff {index : Nat} {elements : List Json} {texts : List String} :
    strings index elements = .ok texts ↔ elements = texts.map Json.string := by
  induction elements generalizing index texts with
  | nil => cases texts <;> simp [strings]
  | cons element rest ih =>
    cases element with
    | string text =>
      rw [strings]
      cases texts with
      | nil => cases strings (index + 1) rest <;> simp [Except.map]
      | cons first others =>
        rw [List.map_cons, List.cons.injEq, Json.string.injEq, ← ih]
        cases strings (index + 1) rest with
        | error defect => simp [Except.map]
        | ok found => simp [Except.map]
    | null => cases texts <;> simp [strings]
    | bool value => cases texts <;> simp [strings]
    | number value => cases texts <;> simp [strings]
    | array elements => cases texts <;> simp [strings]
    | object members => cases texts <;> simp [strings]

theorem strings_eq_error_iff {index : Nat} {elements : List Json} :
    (∃ defect, strings index elements = .error defect) ↔
      ∀ texts : List String, elements ≠ texts.map Json.string := by
  cases h : strings index elements with
  | error defect =>
    refine iff_of_true ⟨defect, rfl⟩ ?_
    intro texts htexts
    rw [strings_eq_ok_iff.mpr htexts] at h
    cases h
  | ok texts =>
    refine iff_of_false (fun ⟨defect, herror⟩ => by cases herror) ?_
    intro hnone
    exact hnone texts (strings_eq_ok_iff.mp h)

/-! ### The kinds -/

theorem isObjectType_iff {members : List (String × Json)} :
    isObjectType members ↔ ObjectTyped (.object members) := by
  rw [isObjectType, ObjectTyped, Json.member?, decide_eq_true_iff]
  cases members.lookup "type" with
  | none => simp
  | some found => cases found <;> simp [Json.text?]

theorem classify_of_objectTyped {members : List (String × Json)}
    (h : ObjectTyped (.object members)) :
    (∃ properties, HasProperties (.object members) properties ∧
        classify (.object members) = .ok (.object properties)) ∨
      (Malformed (.object members) ∧ ∃ defect, classify (.object members) = .error defect) := by
  rw [classify, if_pos (isObjectType_iff.mpr h)]
  cases hproperties : members.lookup "properties" with
  | none => exact Or.inr ⟨Or.inl ⟨h, by simp [Json.member?, hproperties]⟩, _, rfl⟩
  | some found =>
    cases found with
    | object properties => exact Or.inl ⟨properties, ⟨h, hproperties⟩, rfl⟩
    | null => exact Or.inr ⟨Or.inl ⟨h, by simp [Json.member?, hproperties]⟩, _, rfl⟩
    | bool value => exact Or.inr ⟨Or.inl ⟨h, by simp [Json.member?, hproperties]⟩, _, rfl⟩
    | number value => exact Or.inr ⟨Or.inl ⟨h, by simp [Json.member?, hproperties]⟩, _, rfl⟩
    | string text => exact Or.inr ⟨Or.inl ⟨h, by simp [Json.member?, hproperties]⟩, _, rfl⟩
    | array elements => exact Or.inr ⟨Or.inl ⟨h, by simp [Json.member?, hproperties]⟩, _, rfl⟩

/-- An empty `enum` makes neither an enum nor a malformed schema: it is the array of no strings. -/
theorem of_enum_nil {node : Json} (h : ¬ ObjectTyped node)
    (henum : node.member? "enum" = some (.array [])) :
    ¬ Malformed node ∧ ∀ texts, ¬ IsEnum node texts := by
  refine ⟨?_, ?_⟩
  · rintro (⟨hobject, -⟩ | ⟨-, found, hfound, -, hnone⟩)
    · exact h hobject
    · exact hnone [] (Option.some.inj (hfound.symm.trans henum))
  · rintro texts ⟨-, hne, htexts⟩
    have hnil := Option.some.inj (htexts.symm.trans henum)
    simp [hne] at hnil

theorem classify_of_not_objectTyped {members : List (String × Json)}
    (h : ¬ ObjectTyped (.object members)) :
    (∃ texts, IsEnum (.object members) texts ∧
        classify (.object members) = .ok (.enumeration texts)) ∨
      (Malformed (.object members) ∧ ∃ defect, classify (.object members) = .error defect) ∨
      ((¬ Malformed (.object members) ∧ ∀ texts, ¬ IsEnum (.object members) texts) ∧
        classify (.object members) = .ok .other) := by
  rw [classify, if_neg (mt isObjectType_iff.mp h)]
  cases henum : members.lookup "enum" with
  | none => simp [Malformed, IsEnum, h, Json.member?, henum]
  | some found =>
    cases found with
    | null => simp [Malformed, IsEnum, h, Json.member?, henum]
    | bool value => simp [Malformed, IsEnum, h, Json.member?, henum]
    | number value => simp [Malformed, IsEnum, h, Json.member?, henum]
    | string text => simp [Malformed, IsEnum, h, Json.member?, henum]
    | object inner => simp [Malformed, IsEnum, h, Json.member?, henum]
    | array elements =>
      cases elements with
      | nil => exact Or.inr (Or.inr ⟨of_enum_nil h henum, rfl⟩)
      | cons first rest =>
        dsimp only
        cases hstrings : strings 0 (first :: rest) with
        | ok texts =>
          have htexts := strings_eq_ok_iff.mp hstrings
          refine Or.inl ⟨texts, ⟨h, ?_, by rw [Json.member?, henum, htexts]⟩, rfl⟩
          rintro rfl
          cases htexts
        | error defect =>
          have hnone := strings_eq_error_iff.mp ⟨defect, hstrings⟩
          refine Or.inr (Or.inl ⟨Or.inr ⟨h, _, henum, by simp, ?_⟩, defect, rfl⟩)
          intro texts htexts
          exact hnone texts (Json.array.inj htexts)

theorem classify_cases (node : Json) :
    (∃ properties, HasProperties node properties ∧ classify node = .ok (.object properties)) ∨
      (∃ members, IsEnum node members ∧ classify node = .ok (.enumeration members)) ∨
      (Malformed node ∧ ∃ defect, classify node = .error defect) ∨
      ((¬ ObjectTyped node ∧ ¬ Malformed node ∧ ∀ members, ¬ IsEnum node members) ∧
        classify node = .ok .other) := by
  cases node with
  | object members =>
    by_cases h : ObjectTyped (.object members)
    · rcases classify_of_objectTyped h with hproperties | hmalformed
      · exact Or.inl hproperties
      · exact Or.inr (Or.inr (Or.inl hmalformed))
    · rcases classify_of_not_objectTyped h with henum | hmalformed | ⟨hother, hresult⟩
      · exact Or.inr (Or.inl henum)
      · exact Or.inr (Or.inr (Or.inl hmalformed))
      · exact Or.inr (Or.inr (Or.inr ⟨⟨h, hother⟩, hresult⟩))
  | null => simp [classify, ObjectTyped, Malformed, IsEnum, Json.member?]
  | bool value => simp [classify, ObjectTyped, Malformed, IsEnum, Json.member?]
  | number value => simp [classify, ObjectTyped, Malformed, IsEnum, Json.member?]
  | string text => simp [classify, ObjectTyped, Malformed, IsEnum, Json.member?]
  | array elements => simp [classify, ObjectTyped, Malformed, IsEnum, Json.member?]

theorem HasProperties.unique {node : Json} {properties others : List (String × Json)}
    (h : HasProperties node properties) (hothers : HasProperties node others) :
    properties = others :=
  Json.object.inj (Option.some.inj (h.2.symm.trans hothers.2))

theorem IsEnum.unique {node : Json} {members others : List String} (h : IsEnum node members)
    (hothers : IsEnum node others) : members = others := by
  have htexts := Json.array.inj (Option.some.inj (h.2.2.symm.trans hothers.2.2))
  exact (List.map_inj_right fun _ _ => Json.string.inj).mp htexts

theorem Malformed.not_hasProperties {node : Json} (h : Malformed node)
    (properties : List (String × Json)) : ¬ HasProperties node properties := by
  rintro ⟨hobject, hproperties⟩
  rcases h with ⟨-, hnone⟩ | ⟨hnot, -⟩
  · exact hnone properties hproperties
  · exact hnot hobject

theorem Malformed.not_isEnum {node : Json} (h : Malformed node) (members : List String) :
    ¬ IsEnum node members := by
  rintro ⟨hnot, -, hmembers⟩
  rcases h with ⟨hobject, -⟩ | ⟨-, found, hfound, -, hnone⟩
  · exact hnot hobject
  · exact hnone members (Option.some.inj (hfound.symm.trans hmembers))

variable {node : Json}

theorem classify_eq_object_iff {properties : List (String × Json)} :
    classify node = .ok (.object properties) ↔ HasProperties node properties := by
  rcases classify_cases node with ⟨found, h, hresult⟩ | ⟨members, h, hresult⟩ |
    ⟨h, defect, hresult⟩ | ⟨⟨hnot, -⟩, hresult⟩ <;> rw [hresult]
  · constructor
    · rintro ⟨⟩
      exact h
    · intro hproperties
      rw [h.unique hproperties]
  · exact iff_of_false nofun fun hproperties => h.1 hproperties.1
  · exact iff_of_false nofun (h.not_hasProperties properties)
  · exact iff_of_false nofun fun hproperties => hnot hproperties.1

theorem classify_eq_enumeration_iff {members : List String} :
    classify node = .ok (.enumeration members) ↔ IsEnum node members := by
  rcases classify_cases node with ⟨properties, h, hresult⟩ | ⟨found, h, hresult⟩ |
    ⟨h, defect, hresult⟩ | ⟨⟨-, -, hnone⟩, hresult⟩ <;> rw [hresult]
  · exact iff_of_false nofun fun hmembers => hmembers.1 h.1
  · constructor
    · rintro ⟨⟩
      exact h
    · intro hmembers
      rw [h.unique hmembers]
  · exact iff_of_false nofun (h.not_isEnum members)
  · exact iff_of_false nofun (hnone members)

theorem classify_eq_error_iff :
    (∃ defect, classify node = .error defect) ↔ Malformed node := by
  rcases classify_cases node with ⟨properties, h, hresult⟩ | ⟨members, h, hresult⟩ |
    ⟨h, defect, hresult⟩ | ⟨⟨-, hnot, -⟩, hresult⟩ <;> rw [hresult]
  · exact iff_of_false nofun fun hmalformed => hmalformed.not_hasProperties properties h
  · exact iff_of_false nofun fun hmalformed => hmalformed.not_isEnum members h
  · exact iff_of_true ⟨defect, rfl⟩ h
  · exact iff_of_false nofun hnot

end Schema

end SchemaEnums
