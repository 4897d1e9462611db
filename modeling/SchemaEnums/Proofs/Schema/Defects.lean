import SchemaEnums.Proofs.Extraction.Agreement

/-!
# What is wrong with a schema

A malformed schema shows its defect: the members say which one it is, what was found in the place of
what was expected, and in an `enum` also where.

* `Shows`: a schema and the defect that its members show.
* `strings_eq_error_iff_first`: of several elements that are no strings the first one counts.
* `classify_eq_error_iff_shows`: **`classify` fails with the defect that a schema shows.**
* `Shows.malformed`: schemas with a defect are the malformed ones.
-/

namespace SchemaEnums

/-- What was found in the place of what was expected. -/
def Defect.found? : Defect → Option Json
  | .missingProperties => none
  | .propertiesNotObject found => some found
  | .enumNotArray found => some found
  | .nonStringMember _ found => some found

namespace Schema

/-- A schema shows a defect. -/
inductive Shows (node : Json) : Defect → Prop
  /-- The schema of objects has no `properties`, or they are null. -/
  | missingProperties (hobject : ObjectTyped node)
      (hproperties : node.member? "properties" = none ∨ node.member? "properties" = some .null) :
      Shows node .missingProperties
  /-- The schema of objects has `properties` that are something else than an object. -/
  | propertiesNotObject {found : Json} (hobject : ObjectTyped node)
      (hproperties : node.member? "properties" = some found) (hnull : found ≠ .null)
      (hfound : ∀ properties, found ≠ .object properties) : Shows node (.propertiesNotObject found)
  /-- A schema of no objects has an `enum` that is something else than an array. -/
  | enumNotArray {found : Json} (hobject : ¬ ObjectTyped node)
      (henum : node.member? "enum" = some found) (hnull : found ≠ .null)
      (hfound : ∀ elements, found ≠ .array elements) : Shows node (.enumNotArray found)
  /-- A schema of no objects has an `enum` in which an element is no string, and those before it are
  strings. -/
  | nonStringMember {elements : List Json} {index : Nat} {found : Json}
      (hobject : ¬ ObjectTyped node) (henum : node.member? "enum" = some (.array elements))
      (helement : elements[index]? = some found)
      (hfound : ∀ text, found ≠ .string text)
      (hfirst : ∀ earlier < index, ∃ text, elements[earlier]? = some (.string text)) :
      Shows node (.nonStringMember index found)

variable {node found : Json} {elements : List Json} {start : Nat} {defect : Defect}

/-! ### Elements that are no strings -/

theorem strings_cons_of_not_string (h : ∀ text, found ≠ .string text) (start : Nat)
    (rest : List Json) : strings start (found :: rest) = .error (.nonStringMember start found) := by
  cases found with
  | string text => exact absurd rfl (h text)
  | null => rfl
  | bool value => rfl
  | number value => rfl
  | array elements => rfl
  | object members => rfl

theorem strings_cons_string_eq_error_iff {text : String} {rest : List Json} :
    strings start (.string text :: rest) = .error defect ↔
      strings (start + 1) rest = .error defect := by
  rw [strings]
  cases strings (start + 1) rest <;> simp [Except.map]

/-- **Of several elements that are no strings the first one counts.** -/
theorem strings_eq_error_iff_first :
    strings start elements = .error defect ↔
      ∃ index found, elements[index]? = some found ∧ (∀ text, found ≠ .string text) ∧
        (∀ earlier < index, ∃ text, elements[earlier]? = some (.string text)) ∧
        defect = .nonStringMember (start + index) found := by
  induction elements generalizing start with
  | nil => simp [strings]
  | cons element rest ih =>
    by_cases hstring : ∃ text, element = .string text
    · obtain ⟨text, rfl⟩ := hstring
      rw [strings_cons_string_eq_error_iff, ih]
      constructor
      · rintro ⟨index, found, helement, hfound, hfirst, rfl⟩
        refine ⟨index + 1, found, helement, hfound, ?_, by rw [Nat.add_assoc, Nat.add_comm 1]⟩
        intro earlier hearlier
        cases earlier with
        | zero => exact ⟨text, rfl⟩
        | succ earlier => exact hfirst earlier (Nat.lt_of_succ_lt_succ hearlier)
      · rintro ⟨index, found, helement, hfound, hfirst, rfl⟩
        cases index with
        | zero => exact absurd (Option.some.inj helement).symm (hfound text)
        | succ index =>
          refine ⟨index, found, helement, hfound, ?_, by rw [Nat.add_assoc, Nat.add_comm 1]⟩
          intro earlier hearlier
          exact hfirst (earlier + 1) (Nat.succ_lt_succ hearlier)
    · have hnone : ∀ text, element ≠ .string text := not_exists.mp hstring
      rw [strings_cons_of_not_string hnone]
      constructor
      · intro h
        exact ⟨0, element, rfl, hnone, fun _ hearlier => absurd hearlier (Nat.not_lt_zero _),
          (Except.error.inj h).symm⟩
      · rintro ⟨index, found, helement, -, hfirst, rfl⟩
        cases index with
        | zero => rw [Option.some.inj helement, Nat.add_zero]
        | succ index =>
          obtain ⟨text, htext⟩ := hfirst 0 (Nat.succ_pos index)
          exact absurd (Option.some.inj htext) (hnone text)

/-! ### The defects of schemas -/

theorem ofProperties_eq_error_iff {properties : Option Json} :
    ofProperties properties = .error defect ↔
      ((properties = none ∨ properties = some .null) ∧ defect = .missingProperties) ∨
        ∃ found, properties = some found ∧ found ≠ .null ∧ (∀ inner, found ≠ .object inner) ∧
          defect = .propertiesNotObject found := by
  cases properties with
  | none => simp [ofProperties, eq_comm]
  | some found => cases found <;> simp [ofProperties, eq_comm]

theorem map_enumeration_eq_error_iff :
    (strings start elements).map Schema.enumeration = .error defect ↔
      strings start elements = .error defect := by
  cases strings start elements <;> simp [Except.map]

theorem ofEnum_eq_error_iff {values : Option Json} :
    ofEnum values = .error defect ↔
      (∃ found, values = some found ∧ found ≠ .null ∧ (∀ elements, found ≠ .array elements) ∧
          defect = .enumNotArray found) ∨
        ∃ elements, values = some (.array elements) ∧ strings 0 elements = .error defect := by
  cases values with
  | none => simp [ofEnum]
  | some found =>
    cases found with
    | array elements =>
      cases elements with
      | nil => simp [ofEnum, strings]
      | cons element rest => simp [ofEnum, map_enumeration_eq_error_iff]
    | null => simp [ofEnum]
    | bool value => simp [ofEnum, eq_comm]
    | number value => simp [ofEnum, eq_comm]
    | string text => simp [ofEnum, eq_comm]
    | object members => simp [ofEnum, eq_comm]

/-- **`classify` fails with the defect that a schema shows.** -/
theorem classify_eq_error_iff_shows : classify node = .error defect ↔ Shows node defect := by
  by_cases hobject : ObjectTyped node
  · rw [classify_eq_ofProperties hobject, ofProperties_eq_error_iff]
    constructor
    · rintro (⟨hproperties, rfl⟩ | ⟨found, hproperties, hnull, hfound, rfl⟩)
      · exact .missingProperties hobject hproperties
      · exact .propertiesNotObject hobject hproperties hnull hfound
    · intro h
      cases h with
      | missingProperties _ hproperties => exact Or.inl ⟨hproperties, rfl⟩
      | propertiesNotObject _ hproperties hnull hfound =>
        exact Or.inr ⟨_, hproperties, hnull, hfound, rfl⟩
      | enumNotArray hnot => exact absurd hobject hnot
      | nonStringMember hnot => exact absurd hobject hnot
  · rw [classify_eq_ofEnum hobject, ofEnum_eq_error_iff]
    simp only [strings_eq_error_iff_first, Nat.zero_add]
    constructor
    · rintro (⟨found, henum, hnull, hfound, rfl⟩ |
        ⟨elements, henum, index, found, helement, hfound, hfirst, rfl⟩)
      · exact .enumNotArray hobject henum hnull hfound
      · exact .nonStringMember hobject henum helement hfound hfirst
    · intro h
      cases h with
      | missingProperties htyped => exact absurd htyped hobject
      | propertiesNotObject htyped => exact absurd htyped hobject
      | enumNotArray _ henum hnull hfound => exact Or.inl ⟨_, henum, hnull, hfound, rfl⟩
      | nonStringMember _ henum helement hfound hfirst =>
        exact Or.inr ⟨_, henum, _, _, helement, hfound, hfirst, rfl⟩

theorem Shows.malformed (h : Shows node defect) : Malformed node :=
  classify_eq_error_iff.mp ⟨defect, classify_eq_error_iff_shows.mpr h⟩

end Schema

theorem SchemaError.print_suffix_message (error : SchemaError) :
    ∀ found ∈ error.defect.found?, found.print.toList <:+ error.message.toList := by
  obtain ⟨pointer, defect⟩ := error
  intro found hfound
  cases defect with
  | missingProperties => cases hfound
  | propertiesNotObject _ | enumNotArray _ | nonStringMember _ _ =>
    cases hfound
    rw [message, String.toList_append]
    exact List.suffix_append _ _

end SchemaEnums
