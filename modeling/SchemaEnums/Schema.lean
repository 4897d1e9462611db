import SchemaEnums.Json.Printer
import SchemaEnums.Pointer

/-!
# Schemas

What a JSON value means as a schema, as far as enums are concerned (`Schema.classify`).  A value
with `"type": "object"` has properties; another one may have an `enum` of strings; all the rest is
of no interest.  A value that starts to be one of the first two but cannot be is a `Defect`.
-/

namespace SchemaEnums

/-- What a value is as a schema. -/
inductive Schema where
  /-- An object schema with its properties, in document order. -/
  | object (properties : List (String × Json))
  /-- A schema that lists its values, which are strings; there is at least one. -/
  | enumeration (members : List String)
  /-- Anything else. -/
  | other

/-- What is wrong with a schema. -/
inductive Defect where
  /-- An object schema without `properties`. -/
  | missingProperties
  /-- An object schema whose `properties` are no object. -/
  | propertiesNotObject (found : Json)
  /-- An `enum` that is no array. -/
  | enumNotArray (found : Json)
  /-- An `enum` with an element that is no string: the first one, counted from zero. -/
  | nonStringMember (index : Nat) (found : Json)

/-- A defect and the place of the schema that has it. -/
structure SchemaError where
  pointer : Pointer
  defect : Defect

/-- The message of a defect of the schema at a place. -/
def SchemaError.message (error : SchemaError) : String :=
  let place := "`" ++ error.pointer.text ++ "`"
  match error.defect with
  | .missingProperties => "object schema at " ++ place ++ " has no `properties`"
  | .propertiesNotObject found =>
    "`properties` of the object schema at " ++ place ++ " must be an object, but found: "
      ++ found.print
  | .enumNotArray found =>
    "`enum` of the schema at " ++ place ++ " must be an array, but found: " ++ found.print
  | .nonStringMember index found =>
    "`enum` member #" ++ toString index ++ " of the schema at " ++ place
      ++ " must be a string, but found: " ++ found.print

namespace Schema

/-- The texts of elements that are all strings; the first of them has the given index. -/
def strings (index : Nat) : List Json → Except Defect (List String)
  | [] => .ok []
  | .string text :: rest => (strings (index + 1) rest).map (text :: ·)
  | found :: _ => .error (.nonStringMember index found)

/-- Whether an object with the given members is the schema of objects. -/
def isObjectType (members : List (String × Json)) : Bool :=
  (members.lookup "type").bind Json.text? = some "object"

/-- What a value is as a schema. -/
def classify : Json → Except Defect Schema
  | .object members =>
    if isObjectType members then
      match members.lookup "properties" with
      | some (.object properties) => .ok (.object properties)
      | none | some .null => .error .missingProperties
      | some found => .error (.propertiesNotObject found)
    else
      match members.lookup "enum" with
      | none | some .null | some (.array []) => .ok .other
      | some (.array elements) => (strings 0 elements).map .enumeration
      | some found => .error (.enumNotArray found)
  | _ => .ok .other

theorem sizeOf_lookup {key : String} {value : Json} :
    ∀ {members : List (String × Json)}, members.lookup key = some value →
      sizeOf value < sizeOf members
  | [], h => by simp at h
  | (k, v) :: rest, h => by
    rw [List.lookup_cons] at h
    split at h
    · simp at h
      subst h
      simp
      omega
    · have := sizeOf_lookup h
      simp
      omega

theorem sizeOf_properties {value : Json} {properties : List (String × Json)}
    (h : classify value = .ok (.object properties)) : sizeOf properties < sizeOf value := by
  unfold classify at h
  split at h
  · split at h
    · split at h <;> simp at h
      subst h
      have := sizeOf_lookup (by assumption)
      simp at this ⊢
      omega
    · split at h <;> try simp at h
      rename_i elements _ _
      cases hs : strings 0 elements <;> simp [hs, Except.map] at h
  · simp at h

end Schema

end SchemaEnums
