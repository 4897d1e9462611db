import SchemaEnums.Proofs.Extraction.Visits

/-!
# What a walk looks at

Of a schema of objects a walk looks at the `properties`, of another one at the `enum`, and of either
at nothing else.  Documents that agree there are walked through alike, whatever else they hold:
other members, arrays of schemas, or an `enum` in a schema of objects.

* `classify_eq_ofProperties`, `classify_eq_ofEnum`: what is looked at in one schema.
* `Agrees`: the documents have the same of what is looked at.
* `walk_of_agrees`: **documents that agree are walked through alike.**
-/

namespace SchemaEnums

namespace Schema

variable {node other : Json}

/-- Two documents agree in what is looked at: in the `enum` of schemas of no objects, in the names
and the order of properties, and again in what the properties are. -/
inductive Agrees : Json → Json → Prop
  | leaf {node other : Json} (hnode : ¬ ObjectTyped node) (hother : ¬ ObjectTyped other)
      (henum : node.member? "enum" = other.member? "enum") : Agrees node other
  /-- The schemas of objects have the same `properties`, or both have none. -/
  | same {node other : Json} (hnode : ObjectTyped node) (hother : ObjectTyped other)
      (hproperties : node.member? "properties" = other.member? "properties") : Agrees node other
  | properties {node other : Json} {properties others : List (String × Json)}
      (hnode : HasProperties node properties) (hother : HasProperties other others)
      (hkeys : properties.map Prod.fst = others.map Prod.fst)
      (hvalues : ∀ (position : Nat) (property counterpart : String × Json),
        properties[position]? = some property → others[position]? = some counterpart →
          Agrees property.2 counterpart.2) : Agrees node other

/-- What the schema of objects is, by its `properties`. -/
def ofProperties : Option Json → Except Defect Schema
  | some (.object properties) => .ok (.object properties)
  | none | some .null => .error .missingProperties
  | some found => .error (.propertiesNotObject found)

/-- What a schema of no objects is, by its `enum`. -/
def ofEnum : Option Json → Except Defect Schema
  | none | some .null | some (.array []) => .ok .other
  | some (.array elements) => (strings 0 elements).map .enumeration
  | some found => .error (.enumNotArray found)

theorem classify_eq_ofProperties (h : ObjectTyped node) :
    classify node = ofProperties (node.member? "properties") := by
  cases node with
  | object members =>
    rw [classify, if_pos (isObjectType_iff.mpr h)]
    rfl
  | null => cases h
  | bool value => cases h
  | number value => cases h
  | string text => cases h
  | array elements => cases h

theorem classify_eq_ofEnum (h : ¬ ObjectTyped node) :
    classify node = ofEnum (node.member? "enum") := by
  cases node with
  | object members =>
    rw [classify, if_neg (mt isObjectType_iff.mp h)]
    rfl
  | null => rfl
  | bool value => rfl
  | number value => rfl
  | string text => rfl
  | array elements => rfl

end Schema

open Schema

namespace Extraction

variable {node other : Json}

theorem walk_eq_of_classify (node : Json) (name : String) (pointer : Pointer) :
    walk node name pointer =
      match classify node with
      | .error defect => ⟨[], some ⟨pointer, defect⟩⟩
      | .ok .other => ⟨[], none⟩
      | .ok (.enumeration members) => ⟨[⟨name, pointer, members⟩], none⟩
      | .ok (.object properties) => walkProperties properties pointer := by
  rw [walk]
  split <;> simp only [*]

theorem walk_congr (h : classify node = classify other) (name : String) (pointer : Pointer) :
    walk node name pointer = walk other name pointer := by
  rw [walk_eq_of_classify, walk_eq_of_classify, h]

theorem walk_of_hasProperties {properties : List (String × Json)} (h : HasProperties node properties)
    (name : String) (pointer : Pointer) :
    walk node name pointer = walkProperties properties pointer := by
  rw [walk_eq_of_classify, classify_eq_object_iff.mpr h]

theorem walkProperties_congr {properties others : List (String × Json)} {parent : Pointer}
    (hkeys : properties.map Prod.fst = others.map Prod.fst)
    (hvalues : ∀ (position : Nat) (property counterpart : String × Json),
      properties[position]? = some property → others[position]? = some counterpart →
        ∀ name pointer, walk property.2 name pointer = walk counterpart.2 name pointer) :
    walkProperties properties parent = walkProperties others parent := by
  induction properties generalizing others with
  | nil =>
    rw [List.map_eq_nil_iff.mp hkeys.symm]
  | cons property rest ih =>
    cases others with
    | nil => cases hkeys
    | cons counterpart behind =>
      obtain ⟨key, value⟩ := property
      obtain ⟨other, counterpart⟩ := counterpart
      obtain ⟨hkey, htail⟩ := List.cons.inj hkeys
      have hvalue := hvalues 0 _ _ rfl rfl
      have hrest := ih htail fun position => hvalues (position + 1)
      dsimp only at hkey hvalue
      rw [walkProperties, walkProperties, hkey, hvalue, hrest]

/-- **Documents that agree are walked through alike.** -/
theorem walk_of_agrees (h : Agrees node other) :
    ∀ name pointer, walk node name pointer = walk other name pointer := by
  induction h with
  | leaf hnode hother henum =>
    refine walk_congr ?_
    rw [classify_eq_ofEnum hnode, classify_eq_ofEnum hother, henum]
  | same hnode hother hproperties =>
    refine walk_congr ?_
    rw [classify_eq_ofProperties hnode, classify_eq_ofProperties hother, hproperties]
  | properties hnode hother hkeys _ ih =>
    intro name pointer
    rw [walk_of_hasProperties hnode, walk_of_hasProperties hother]
    exact walkProperties_congr hkeys ih

end Extraction

end SchemaEnums
