import Mathlib.Data.List.Forall2
import Mathlib.Data.List.Nodup
import SchemaEnums.Loading
import SchemaEnums.Proofs.Extraction.Pointers
import SchemaEnums.Proofs.Json.RoundTrip
import SchemaEnums.Proofs.Schema.Defects

/-!
# What an extraction reports

An extraction reports the enums that it comes to, one record of the log for each, and if it comes to
a malformed schema, the defect of that one.  Each report has a pointer, and the pointer leads back
to the schema that the report is about.

* `SoundBefore`, `FirstMalformed`: how far an extraction comes in a document.
* `declarations_eq_error_iff_shows`: **what is reported is the defect that the first malformed
  schema shows**, and its pointer leads there.
* `enumerates_found_before`: **the enums before the first malformed schema are found**, whether
  there is one or not.
* `records_of_parse`: **the log has one record for each of them**, in their order, and no two
  records have the same pointer.
-/

namespace SchemaEnums

open Schema

namespace Extraction

variable {document : Json} {name : String} {source : Path}

/-- No schema that comes before the end of a way is malformed. -/
def SoundBefore (document : Json) (way : List Step) : Prop :=
  ∀ earlier other, Reaches document earlier other → List.Lex Step.Before earlier way →
    ¬ Malformed other

/-- The way leads to a malformed schema, and to the first one. -/
def FirstMalformed (document : Json) (way : List Step) (node : Json) : Prop :=
  Reaches document way node ∧ Malformed node ∧ SoundBefore document way

/-! ### The defect -/

theorem declarations_eq_error {extraction : Extraction} {error : SchemaError} :
    extraction.declarations source = .error error ↔ extraction.error = some error := by
  unfold Extraction.declarations
  cases extraction.error <;> simp

/-- **What is reported is the defect that the first malformed schema shows**, and the pointer leads
to this schema; the message ends with the text of what was found there. -/
theorem declarations_eq_error_iff_shows (document : Json) (hkeys : document.DistinctKeys)
    (name : String) (source : Path) (error : SchemaError) :
    ((ofDocument document name).declarations source = .error error ↔
      ∃ way node, FirstMalformed document way node ∧ error.pointer = pointerAt .root way ∧
        error.pointer.resolve? document = some node ∧ Shows node error.defect) ∧
      ∀ found ∈ error.defect.found?, found.print.toList <:+ error.message.toList := by
  refine ⟨?_, error.print_suffix_message⟩
  rw [declarations_eq_error, ofDocument_error_eq_some_iff]
  constructor
  · rintro ⟨way, node, defect, hreaches, hdefect, rfl, hfirst⟩
    have hshows := classify_eq_error_iff_shows.mp hdefect
    exact ⟨way, node, ⟨hreaches, hshows.malformed, hfirst⟩, rfl, resolve?_pointerAt hreaches hkeys,
      hshows⟩
  · obtain ⟨pointer, defect⟩ := error
    rintro ⟨way, node, ⟨hreaches, -, hfirst⟩, rfl, -, hshows⟩
    exact ⟨way, node, defect, hreaches, classify_eq_error_iff_shows.mpr hshows, rfl, hfirst⟩

/-- Two malformed schemas, the first of them below names with characters that a pointer has to
escape.  In front of it are two enums of the same name, in different objects. -/
def oddDocument : Json :=
  .object [("type", .string "object"), ("properties", .object [
    ("", .object [("enum", .array [.string "A"])]),
    ("a/~1", .object [("type", .string "object"), ("properties", .object [
      ("", .object [("enum", .array [.string "B", .string "C"])]),
      ("#", .object [("enum", .array [.string "D", .null])])])]),
    ("b", .object [("type", .string "object")])])]

theorem distinctKeys_oddDocument : oddDocument.DistinctKeys := by
  simp [oddDocument]

/-- The defect is reported where the way through the odd names leads, and not that of the schema
behind it. -/
theorem declarations_eq_error_iff_shows_odd :
    oddDocument.DistinctKeys ∧
      (ofDocument oddDocument "x").declarations ⟨"x.json"⟩ =
        .error ⟨⟨"#/properties/a~1~01/properties/#"⟩, .nonStringMember 1 .null⟩ ∧
      ∃ way node, FirstMalformed oddDocument way node ∧
        (⟨"#/properties/a~1~01/properties/#"⟩ : Pointer).resolve? oddDocument = some node ∧
        Shows node (.nonStringMember 1 .null) := by
  have hkeys := distinctKeys_oddDocument
  have herror : (ofDocument oddDocument "x").declarations ⟨"x.json"⟩ =
      .error ⟨⟨"#/properties/a~1~01/properties/#"⟩, .nonStringMember 1 .null⟩ := by
    with_unfolding_all rfl
  obtain ⟨hiff, -⟩ := declarations_eq_error_iff_shows oddDocument hkeys "x" ⟨"x.json"⟩
    ⟨⟨"#/properties/a~1~01/properties/#"⟩, .nonStringMember 1 .null⟩
  obtain ⟨way, node, hfirst, -, hresolve, hshows⟩ := hiff.mp herror
  exact ⟨hkeys, herror, way, node, hfirst, hresolve, hshows⟩

/-! ### The enums -/

/-- **The enums before the first malformed schema are found**, in the order of their ways. -/
theorem enumerates_found_before (document : Json) (name : String) :
    Enumerates (List.Lex Step.Before)
      (fun way found => ∃ node members, Reaches document way node ∧ IsEnum node members ∧
        SoundBefore document way ∧ found = ⟨nameAt name way, pointerAt .root way, members⟩)
      (ofDocument document name).found := by
  rw [ofDocument, walk_eq, ofVisits]
  have hascending := (ascending_nodes document).sublist
    (List.takeWhile_sublist fun visit => (defect? .root visit).isNone)
  refine (Enumerates.filterMap hascending fun way node => found? name .root (way, node)).congr ?_
  intro way found
  simp only [mem_takeWhile_iff_of_ascending (ascending_nodes document) lex_step_asymm,
    Option.isNone_iff_eq_none, defect?_eq_none_iff, found?_eq_some_iff, Prod.forall, mem_nodes_iff]
  constructor
  · rintro ⟨node, ⟨hreaches, -, hbefore⟩, members, henum, hfound⟩
    exact ⟨node, members, hreaches, henum, hbefore, hfound⟩
  · rintro ⟨node, members, hreaches, henum, hbefore, hfound⟩
    have hsound : ¬ Malformed node := fun hmalformed => hmalformed.not_isEnum members henum
    exact ⟨node, ⟨hreaches, hsound, hbefore⟩, members, henum, hfound⟩

/-- What an extraction has found, as events of the log. -/
def events (extraction : Extraction) (source : Path) : List Event :=
  extraction.found.map (Event.found · source)

/-- The record of an enum in the log. -/
def foundRecord (name : String) (source : Path) (pointer : Pointer) (members : Nat) : Record :=
  ⟨.debug, "enumgen::extract", "Found enum",
    [("enum_name", .quoted name), ("source", .plain source.text),
      ("pointer", .quoted pointer.text), ("members", .count members)]⟩

/-- What an extraction has found, as records of the log. -/
def records (extraction : Extraction) (source : Path) : List Record :=
  (extraction.events source).map Event.record

theorem records_eq_map (extraction : Extraction) (source : Path) :
    extraction.records source = extraction.found.map fun found =>
      foundRecord found.name source found.pointer found.members.length := by
  rw [records, events, List.map_map]
  rfl

/-- **The log has one record for each enum before the first malformed schema**, with a pointer that
leads to this enum. -/
theorem enumerates_records (hkeys : document.DistinctKeys) (name : String) (source : Path) :
    Enumerates (List.Lex Step.Before)
      (fun way record => ∃ node members, Reaches document way node ∧ IsEnum node members ∧
        SoundBefore document way ∧ (pointerAt .root way).resolve? document = some node ∧
        record = foundRecord (nameAt name way) source (pointerAt .root way) members.length)
      ((ofDocument document name).records source) := by
  rw [records_eq_map]
  refine ((enumerates_found_before document name).map _).congr ?_
  intro way record
  constructor
  · rintro ⟨_, ⟨node, members, hreaches, henum, hbefore, rfl⟩, rfl⟩
    exact ⟨node, members, hreaches, henum, hbefore, resolve?_pointerAt hreaches hkeys, rfl⟩
  · rintro ⟨node, members, hreaches, henum, hbefore, -, rfl⟩
    exact ⟨_, ⟨node, members, hreaches, henum, hbefore, rfl⟩, rfl⟩

/-- **No two records have the same pointer**, if the keys of objects are distinct. -/
theorem nodup_recordPointers (hkeys : document.DistinctKeys) (name : String) (source : Path) :
    (((ofDocument document name).records source).map (·.fields.lookup "pointer")).Nodup := by
  have hpointers : ((ofDocument document name).found.map Found.pointer).Nodup := by
    refine ((enumerates_found_before document name).map Found.pointer).nodup
      (lex_irrefl fun step => Nat.lt_irrefl step.1) ?_
    rintro way other _ ⟨_, ⟨node, _, hreaches, -, -, rfl⟩, rfl⟩
      ⟨_, ⟨found, _, hfound, -, -, rfl⟩, hsame⟩
    exact way_eq_of_pointerAt hkeys hreaches hfound hsame
  -- the pointer is a field of the record, so different pointers make different fields
  have hfield : (fun record => record.fields.lookup "pointer") ∘ (fun found : Found =>
      foundRecord found.name source found.pointer found.members.length) =
      (fun pointer : Pointer => some (.quoted pointer.text)) ∘ Found.pointer := rfl
  rw [records_eq_map, List.map_map, hfield, ← List.map_map]
  refine hpointers.map ?_
  rintro ⟨text⟩ ⟨other⟩ hsame
  exact congrArg Pointer.mk (Field.quoted.inj (Option.some.inj hsame))

theorem forall₂_records_declarations {extraction : Extraction} {declarations : List Declaration}
    (h : extraction.declarations source = .ok declarations) :
    List.Forall₂ (fun record declaration => ∃ pointer, record =
        foundRecord declaration.name declaration.source pointer declaration.members.length)
      (extraction.records source) declarations := by
  obtain ⟨-, rfl⟩ := declarations_eq_ok_iff.mp h
  rw [records_eq_map, List.forall₂_map_left_iff, List.forall₂_map_right_iff, List.forall₂_same]
  intro found _
  exact ⟨found.pointer, rfl⟩

/-- The log of a file shows these records, and no other record of an enum. -/
theorem records_of_loading (path : Path) (document : Json) :
    ∃ behind, (Loading.ofDocument path document).events.map Event.record =
        (ofDocument document path.schemaName).records path ++ behind ∧
      ∀ record ∈ behind, record.message ≠ "Found enum" := by
  unfold Loading.ofDocument
  dsimp only
  cases (ofDocument document path.schemaName).declarations path with
  | error error => exact ⟨[], (List.append_nil _).symm, nofun⟩
  | ok declarations =>
    refine ⟨[(Event.processed path declarations.length).record], List.map_append, ?_⟩
    intro record hrecord
    rw [List.mem_singleton.mp hrecord]
    show "Processed schema file" ≠ "Found enum"
    decide

/-- **The log of a document that has been read has one record for each enum before the first
malformed schema**, in the order of the document, with the name and the number of members of this
enum, and with a pointer that leads to it.  No two records have the same pointer, and if there are
declarations, they are those of the records, position by position. -/
theorem records_of_parse {text : String} (h : Json.parse text = .ok document) (name : String)
    (source : Path) :
    Enumerates (List.Lex Step.Before)
        (fun way record => ∃ node members, Reaches document way node ∧ IsEnum node members ∧
          SoundBefore document way ∧ (pointerAt .root way).resolve? document = some node ∧
          record = foundRecord (nameAt name way) source (pointerAt .root way) members.length)
        ((ofDocument document name).records source) ∧
      (((ofDocument document name).records source).map (·.fields.lookup "pointer")).Nodup ∧
      (∀ declarations, (ofDocument document name).declarations source = .ok declarations →
        List.Forall₂ (fun record declaration => ∃ pointer, record =
            foundRecord declaration.name declaration.source pointer declaration.members.length)
          ((ofDocument document name).records source) declarations) ∧
      ∃ behind, (Loading.ofDocument source document).events.map Event.record =
          (ofDocument document source.schemaName).records source ++ behind ∧
        ∀ record ∈ behind, record.message ≠ "Found enum" := by
  have hkeys := Json.distinctKeys_of_parse h
  refine ⟨?_, ?_, ?_, ?_⟩
  · exact enumerates_records hkeys name source
  · exact nodup_recordPointers hkeys name source
  · intro declarations hdeclarations
    exact forall₂_records_declarations hdeclarations
  · exact records_of_loading source document

/-- The two enums of the same name have a record each. -/
theorem records_of_parse_odd :
    Json.parse oddDocument.print = .ok oddDocument ∧
      (ofDocument oddDocument "x").records ⟨"x.json"⟩ =
        [foundRecord "" ⟨"x.json"⟩ ⟨"#/properties/"⟩ 1,
          foundRecord "" ⟨"x.json"⟩ ⟨"#/properties/a~1~01/properties/"⟩ 2] ∧
      (((ofDocument oddDocument "x").records ⟨"x.json"⟩).map
        (·.fields.lookup "pointer")).Nodup := by
  have hfloat : oddDocument.FloatFree := by simp [oddDocument]
  have hdepth : oddDocument.depth ≤ 127 := by decide
  have hparse := Json.parse_print hfloat distinctKeys_oddDocument hdepth
  have hrecords : (ofDocument oddDocument "x").records ⟨"x.json"⟩ =
      [foundRecord "" ⟨"x.json"⟩ ⟨"#/properties/"⟩ 1,
        foundRecord "" ⟨"x.json"⟩ ⟨"#/properties/a~1~01/properties/"⟩ 2] := by
    with_unfolding_all rfl
  obtain ⟨-, hpointers, -, -⟩ := records_of_parse hparse "x" ⟨"x.json"⟩
  exact ⟨hparse, hrecords, hpointers⟩

end Extraction

end SchemaEnums
