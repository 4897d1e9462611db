import SchemaEnums.Proofs.Extraction.Agreement
import SchemaEnums.Proofs.InRow
import SchemaEnums.Proofs.Json.RepeatedKeys

/-!
# Properties that are repeated

The text of a schema of objects may repeat properties.  What is extracted from it is what the last
schema of each property declares, at the place where the property is written first.  What has been
written for it before does not matter, be it an enum or no schema at all.

* `declarations_walkProperties`: **a schema of objects declares what its properties declare**, in a
  row.
* `schemaText`: the text that spells properties out, and `parse_schemaText`: what is read from it.
* `exists_parse_schemaText`: **a repeated property counts with its last schema, at its first place.**
-/

namespace SchemaEnums.Extraction

open Schema Json Json.Reader

variable {properties members pairs : List (String × Json)} {property : String × Json}
  {parent : Pointer} {source : Path} {declarations : List Declaration} {error : SchemaError}

/-! ### Property by property -/

/-- What a property of the schema at `parent` declares, or the first defect in it. -/
def ofProperty (parent : Pointer) (source : Path) (property : String × Json) :
    Except SchemaError (List Declaration) :=
  (walk property.2 property.1 (parent.property property.1)).declarations source

theorem ofProperty_of_classify {texts : List String}
    (h : classify property.2 = .ok (.enumeration texts)) :
    ofProperty parent source property = .ok [⟨property.1, texts, source⟩] := by
  rw [ofProperty, walk_eq_of_classify, h]
  rfl

/-- **A schema of objects declares what its properties declare**, in a row. -/
theorem declarations_walkProperties (properties : List (String × Json)) :
    (walkProperties properties parent).declarations source =
      inRow (ofProperty parent source) properties := by
  induction properties with
  | nil =>
    rw [walkProperties]
    rfl
  | cons property rest ih =>
    obtain ⟨name, value⟩ := property
    rw [walkProperties, inRow, ← ih, ofProperty]
    split
    · rename_i found error hwalk
      rw [hwalk]
      rfl
    · rename_i found hwalk
      rw [hwalk]
      obtain ⟨more, error⟩ := walkProperties rest parent
      cases error with
      | none => exact congrArg Except.ok List.map_append
      | some error => rfl

/-! ### A text that repeats properties -/

/-- The schema of objects that has the given properties, and nothing else. -/
def objectSchema (properties : List (String × Json)) : Json :=
  .object [("type", .string "object"), ("properties", .object properties)]

/-- The text of a property. -/
def propertyText (property : String × Json) : String :=
  (Json.string property.1).print ++ ":" ++ property.2.print

/-- The text of an object, from the texts of its members. -/
def objectText (members : List String) : String :=
  .singleton '{' ++ ",".intercalate members ++ .singleton '}'

/-- The text that spells out the properties of a schema of objects, one after the other, whether a
name is repeated or not. -/
def schemaText (properties : List (String × Json)) : String :=
  objectText ["\"type\":\"object\"", "\"properties\":" ++ objectText (properties.map propertyText)]

theorem hasProperties_objectSchema (properties : List (String × Json)) :
    HasProperties (objectSchema properties) properties :=
  ⟨rfl, rfl⟩

theorem toList_propertyText (property : String × Json) :
    (propertyText property).toList =
      StringLiteral.chars property.1.toList ++ ':' :: property.2.chars := by
  simp [propertyText, print, Json.chars]

theorem objectText_eq (members : List (String × Json)) :
    objectText (members.map propertyText) = (Json.object members).print := by
  have hmembers : (members.map propertyText).map String.toList =
      members.map fun member =>
        StringLiteral.chars member.1.toList ++ ':' :: member.2.chars := by
    rw [List.map_map]
    exact List.map_congr_left fun member _ => toList_propertyText member
  rw [← String.toList_inj, print, String.toList_ofList, Json.chars, memberChars_eq, objectText,
    String.toList_append, String.toList_append, String.toList_intercalate, hmembers]
  rfl

/-- **The text of properties is that of the schema with these properties.** -/
theorem schemaText_eq (properties : List (String × Json)) :
    schemaText properties = (objectSchema properties).print := by
  have htype : "\"type\":\"object\"" = propertyText ("type", .string "object") := by
    decide
  have hkey : "\"properties\":" = (Json.string "properties").print ++ ":" := by decide
  have hproperties : "\"properties\":" ++ objectText (properties.map propertyText) =
      propertyText ("properties", .object properties) := by
    rw [objectText_eq, propertyText, hkey]
  rw [schemaText, htype, hproperties]
  exact objectText_eq [("type", .string "object"), ("properties", .object properties)]

theorem chars_objectSchema (properties : List (String × Json)) :
    (objectSchema properties).chars =
      '{' :: '"' :: memberText "type" (.string "object")
        (',' :: '"' :: memberText "properties" (.object properties) ['}']) := by
  rw [objectSchema, Json.chars, memberChars_cons (List.cons_ne_nil _ _), memberChars_singleton]

theorem parse_schemaText (hfloat : ∀ pair ∈ pairs, pair.2.FloatFree)
    (hkeys : ∀ pair ∈ pairs, pair.2.DistinctKeys) (hdepth : ∀ pair ∈ pairs, pair.2.depth ≤ 125)
    (hmembers : ofPairs pairs = .object members) :
    parse (schemaText pairs) = .ok (objectSchema members) := by
  have hvalues : ∀ pair ∈ pairs, Returns (Reader.value 125) pair.2 := fun pair hpair =>
    returns_value 125 pair.2 (hfloat pair hpair) (hkeys pair hpair) (hdepth pair hpair)
  have hproperties (rest : List Char) :
      Reads (Reader.value 126) ((Json.object pairs).chars ++ rest) (.object members) rest :=
    hmembers ▸ reads_objectChars hvalues rest
  have htype (rest : List Char) :
      Reads (Reader.value 126) ((Json.string "object").chars ++ ',' :: rest) (.string "object")
        (',' :: rest) :=
    returns_scalar (.string "object") nofun nofun (',' :: rest) (endsNumber_cons (by decide) rest)
  have hdistinct : ["type", "properties"].Nodup := by decide
  have hschema : ofPairs [("type", .string "object"), ("properties", .object members)] =
      objectSchema members := ofPairs_eq_object hdistinct
  have hlast := members_last (reads_string "properties" _) (hproperties ['}'])
  have hobject := object_members (members_more (reads_string "type" _) (htype _) hlast)
  rw [hschema] at hobject
  rw [schemaText_eq, print, chars_objectSchema]
  exact parse_of_reads (valueWith_object hobject)

/-- **A repeated property counts with its last schema, at its first place.**  The text of properties
whose schemas hold no float, repeat no key themselves and are nested at most 125 levels deep is read
as the schema that has each property once.  What is extracted from it is what these last schemas
declare, one after the other, or the first defect among them. -/
theorem exists_parse_schemaText (hpairs : ∀ pair ∈ pairs,
      pair.2.FloatFree ∧ pair.2.DistinctKeys ∧ pair.2.depth ≤ 125) :
    ∃ properties, Enumerates Nat.lt (MergedAt pairs) properties ∧
      parse (schemaText pairs) = .ok (objectSchema properties) ∧
      ∀ name source,
        (∀ declarations,
          (ofDocument (objectSchema properties) name).declarations source = .ok declarations ↔
            ∃ parts, List.Forall₂ (fun property part => ofProperty .root source property = .ok part)
                properties parts ∧
              declarations = parts.flatten) ∧
        ∀ error,
          (ofDocument (objectSchema properties) name).declarations source = .error error ↔
            ∃ front property behind, properties = front ++ property :: behind ∧
              (∀ earlier ∈ front, ∃ part, ofProperty .root source earlier = .ok part) ∧
                ofProperty .root source property = .error error := by
  obtain ⟨properties, hproperties, hmerged⟩ := exists_ofPairs pairs
  have hparse := parse_schemaText (fun pair hpair => (hpairs pair hpair).1)
    (fun pair hpair => (hpairs pair hpair).2.1) (fun pair hpair => (hpairs pair hpair).2.2) hproperties
  refine ⟨properties, hmerged, hparse, fun name source => ?_⟩
  rw [ofDocument, walk_of_hasProperties (hasProperties_objectSchema properties)]
  rw [declarations_walkProperties]
  exact ⟨fun declarations => inRow_eq_ok_iff, fun error => inRow_eq_error_iff⟩

/-- Properties that are repeated: `a` with another enum, and `b` first with no schema at all. -/
def repeated : List (String × Json) :=
  [("a", .object [("enum", .array [.string "X"])]), ("b", .object [("type", .string "object")]),
    ("c", .object [("enum", .array [.string "C"])]), ("b", .object [("enum", .array [.string "B"])]),
    ("a", .object [("enum", .array [.string "A", .string "\""])])]

/-- The last schema of each of them, where it was written first. -/
def merged : List (String × Json) :=
  [("a", .object [("enum", .array [.string "A", .string "\""])]),
    ("b", .object [("enum", .array [.string "B"])]), ("c", .object [("enum", .array [.string "C"])])]

theorem exists_parse_schemaText_repeated :
    (∀ pair ∈ repeated, pair.2.FloatFree ∧ pair.2.DistinctKeys ∧ pair.2.depth ≤ 125) ∧
      Enumerates Nat.lt (MergedAt repeated) merged ∧
      parse (schemaText repeated) = .ok (objectSchema merged) ∧
      (ofDocument (objectSchema merged) "x").declarations ⟨"x.json"⟩ =
        .ok [⟨"a", ["A", "\""], ⟨"x.json"⟩⟩, ⟨"b", ["B"], ⟨"x.json"⟩⟩, ⟨"c", ["C"], ⟨"x.json"⟩⟩] := by
  have hrepeated : ∀ pair ∈ repeated, pair.2.FloatFree ∧ pair.2.DistinctKeys ∧ pair.2.depth ≤ 125 := by
    simp [repeated, depth, depthOfElements, depthOfMembers]
  have hparsed : parse (schemaText repeated) = .ok (objectSchema merged) :=
    parse_schemaText (fun pair hpair => (hrepeated pair hpair).1)
      (fun pair hpair => (hrepeated pair hpair).2.1) (fun pair hpair => (hrepeated pair hpair).2.2) rfl
  obtain ⟨properties, hmerged, hparse, hdeclared⟩ := exists_parse_schemaText hrepeated
  cases hparsed.symm.trans hparse
  refine ⟨hrepeated, hmerged, hparse, ((hdeclared "x" ⟨"x.json"⟩).1 _).mpr ?_⟩
  refine ⟨[[⟨"a", ["A", "\""], ⟨"x.json"⟩⟩], [⟨"b", ["B"], ⟨"x.json"⟩⟩], [⟨"c", ["C"], ⟨"x.json"⟩⟩]],
    ?_, rfl⟩
  exact .cons (ofProperty_of_classify rfl)
    (.cons (ofProperty_of_classify rfl) (.cons (ofProperty_of_classify rfl) .nil))

end SchemaEnums.Extraction
