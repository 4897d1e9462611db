import Mathlib.Data.List.TakeWhile
import SchemaEnums.Extraction
import SchemaEnums.Proofs.Schema.Nodes

/-!
# An extraction, schema by schema

The walk of an extraction comes to the schemas of the document one after the other.  It notes the
enums among them until it comes to a schema that is malformed.

* `nameAt`, `pointerAt`: what a way makes of the name and of the pointer that a walk starts with.
* `Extraction.ofVisits`: what is noted of schemas, up to the first malformed one.
* `walk_eq`: **the walk notes this of the schemas that can be reached.**
* `ofDocument_error_eq_none_iff`, `enumerates_found`: it runs through exactly if no schema is
  malformed, and then it has noted all enums.
* `enumerates_declarations`: **the declarations of a document are its enums.**
* `ofDocument_error_eq_some_iff`: **otherwise it stops at the first malformed schema.**
-/

namespace SchemaEnums

open Schema

namespace Extraction

/-- The name of what stands at the end of a way: the last property, or `name` if there is none. -/
def nameAt (name : String) (way : List Step) : String :=
  (way.getLast?.map Prod.snd).getD name

/-- The pointer to what stands at the end of a way from the schema at `pointer`. -/
def pointerAt (pointer : Pointer) (way : List Step) : Pointer :=
  way.foldl (fun parent step => parent.property step.2) pointer

/-- The enum that a schema is. -/
def found? (name : String) (pointer : Pointer) (visit : List Step × Json) : Option Found :=
  match classify visit.2 with
  | .ok (.enumeration members) =>
    some ⟨nameAt name visit.1, pointerAt pointer visit.1, members⟩
  | _ => none

/-- What is wrong with a schema. -/
def defect? (pointer : Pointer) (visit : List Step × Json) : Option SchemaError :=
  match classify visit.2 with
  | .error defect => some ⟨pointerAt pointer visit.1, defect⟩
  | _ => none

/-- What is noted of schemas: the enums before the first malformed one, and its defect. -/
def ofVisits (name : String) (pointer : Pointer) (visits : List (List Step × Json)) : Extraction :=
  ⟨(visits.takeWhile fun visit => (defect? pointer visit).isNone).filterMap (found? name pointer),
    visits.findSome? (defect? pointer)⟩

variable {name key : String} {pointer : Pointer} {visits first second : List (List Step × Json)}
  {visit : List Step × Json} {node document : Json}

theorem nameAt_cons (name : String) (step : Step) (rest : List Step) :
    nameAt name (step :: rest) = nameAt step.2 rest := by
  rw [nameAt, nameAt, List.getLast?_cons]
  cases rest.getLast? <;> rfl

/-! ### Several schemas -/

theorem ofVisits_of_complete (h : ∀ visit ∈ visits, defect? pointer visit = none) :
    ofVisits name pointer visits = ⟨visits.filterMap (found? name pointer), none⟩ := by
  have htake : visits.takeWhile (fun visit => (defect? pointer visit).isNone) = visits :=
    List.takeWhile_eq_self_iff.mpr fun visit hvisit => by simp [h visit hvisit]
  rw [ofVisits, htake, List.findSome?_eq_none_iff.mpr h]

theorem ofVisits_append_of_complete (h : ∀ visit ∈ first, defect? pointer visit = none)
    (second : List (List Step × Json)) :
    ofVisits name pointer (first ++ second) =
      ⟨(ofVisits name pointer first).found ++ (ofVisits name pointer second).found,
        (ofVisits name pointer second).error⟩ := by
  rw [ofVisits_of_complete h, ofVisits, ofVisits,
    List.takeWhile_append_of_pos fun visit hvisit => by simp [h visit hvisit],
    List.filterMap_append, List.findSome?_append, List.findSome?_eq_none_iff.mpr h, Option.none_or]

theorem ofVisits_append_of_error {error : SchemaError}
    (h : (ofVisits name pointer first).error = some error) (second : List (List Step × Json)) :
    ofVisits name pointer (first ++ second) = ofVisits name pointer first := by
  have herror : first.findSome? (defect? pointer) = some error := h
  obtain ⟨visit, hvisit, hdefect⟩ := List.exists_of_findSome?_eq_some herror
  have htake : (first ++ second).takeWhile (fun visit => (defect? pointer visit).isNone) =
      first.takeWhile fun visit => (defect? pointer visit).isNone := by
    rw [List.takeWhile_append, if_neg]
    intro hlength
    have hall := List.takeWhile_eq_self_iff.mp
      ((List.takeWhile_prefix _).eq_of_length hlength)
    simpa [hdefect] using hall visit hvisit
  rw [ofVisits, ofVisits, htake, List.findSome?_append, herror, Option.some_or]

/-- What stands below a property takes its name, and its pointer starts with the property's. -/
theorem ofVisits_below (name : String) (pointer : Pointer) (position : Nat) (key : String)
    (visits : List (List Step × Json)) :
    ofVisits name pointer (below (position, key) visits) =
      ofVisits key (pointer.property key) visits := by
  have hfound : (found? name pointer ∘ fun visit => ((position, key) :: visit.1, visit.2)) =
      found? key (pointer.property key) := by
    funext visit
    simp only [Function.comp_def, found?, nameAt_cons, pointerAt, List.foldl_cons]
  have hdefect : (defect? pointer ∘ fun visit => ((position, key) :: visit.1, visit.2)) =
      defect? (pointer.property key) := by
    funext visit
    simp only [Function.comp_def, defect?, pointerAt, List.foldl_cons]
  rw [ofVisits, ofVisits, below, List.takeWhile_map, List.filterMap_map, List.findSome?_map, hfound,
    hdefect, ← hdefect]
  rfl

/-! ### The walk -/

mutual

/-- **The walk from a schema notes what is to be noted of the schemas that can be reached.** -/
theorem walk_eq (value : Json) (name : String) (pointer : Pointer) :
    walk value name pointer = ofVisits name pointer (nodes value) := by
  have hleaf (h : ∀ properties, classify value ≠ .ok (.object properties)) :
      nodes value = [([], value)] :=
    nodes_of_leaf fun properties hproperties =>
      h properties (classify_eq_object_iff.mpr hproperties)
  rw [walk]
  split
  · rename_i defect hclassify
    rw [hleaf (by simp [hclassify])]
    simp [ofVisits, defect?, hclassify, pointerAt]
  · rename_i hclassify
    rw [hleaf (by simp [hclassify])]
    simp [ofVisits, defect?, found?, hclassify]
  · rename_i members hclassify
    rw [hleaf (by simp [hclassify])]
    simp [ofVisits, defect?, found?, hclassify, nameAt, pointerAt]
  · rename_i properties hclassify
    rw [nodes_of_hasProperties (classify_eq_object_iff.mp hclassify),
      walkProperties_eq properties pointer name 0]
    simp [ofVisits, defect?, found?, hclassify]
termination_by sizeOf value
decreasing_by exact sizeOf_properties (by assumption)

theorem walkProperties_eq (properties : List (String × Json)) (parent : Pointer) (name : String)
    (position : Nat) :
    walkProperties properties parent =
      ofVisits name parent (nodesOfProperties position properties) := by
  cases properties with
  | nil =>
    rw [walkProperties, nodesOfProperties]
    rfl
  | cons head rest =>
    obtain ⟨key, value⟩ := head
    rw [walkProperties, nodesOfProperties, walk_eq value key (parent.property key),
      walkProperties_eq rest parent name (position + 1), ← ofVisits_below name parent position key]
    split
    · rename_i found error hfirst
      rw [ofVisits_append_of_error (congrArg Extraction.error hfirst), hfirst]
    · rename_i found hfirst
      have hcomplete := List.findSome?_eq_none_iff.mp (congrArg Extraction.error hfirst)
      rw [ofVisits_append_of_complete hcomplete, hfirst]
termination_by sizeOf properties

end

/-! ### A whole document -/

theorem defect?_eq_none_iff : defect? pointer visit = none ↔ ¬ Malformed visit.2 := by
  rw [← classify_eq_error_iff, defect?]
  split
  · rename_i defect hclassify
    simp [hclassify]
  · rename_i hnone
    exact iff_of_true rfl fun ⟨defect, hdefect⟩ => hnone defect hdefect

theorem found?_eq_some_iff {found : Found} :
    found? name pointer visit = some found ↔
      ∃ members, IsEnum visit.2 members ∧
        found = ⟨nameAt name visit.1, pointerAt pointer visit.1, members⟩ := by
  simp only [← classify_eq_enumeration_iff]
  unfold found?
  split
  · rename_i members hclassify
    simp [hclassify, eq_comm]
  · rename_i hnone
    exact iff_of_false nofun fun ⟨members, hmembers, _⟩ => hnone members hmembers

/-- **The walk through a document runs through exactly if it can reach no malformed schema.** -/
theorem ofDocument_error_eq_none_iff :
    (ofDocument document name).error = none ↔
      ∀ way node, Reaches document way node → ¬ Malformed node := by
  rw [ofDocument, walk_eq, ofVisits, List.findSome?_eq_none_iff]
  simp only [defect?_eq_none_iff, Prod.forall, mem_nodes_iff]

/-- **Then it has noted the enums that can be reached**, in the order of their ways. -/
theorem enumerates_found (h : (ofDocument document name).error = none) :
    Enumerates (List.Lex Step.Before)
      (fun way found => ∃ node members, Reaches document way node ∧ IsEnum node members ∧
        found = ⟨nameAt name way, pointerAt .root way, members⟩)
      (ofDocument document name).found := by
  rw [ofDocument, walk_eq] at h ⊢
  rw [ofVisits_of_complete (List.findSome?_eq_none_iff.mp h)]
  refine (Enumerates.filterMap (ascending_nodes document)
    fun way node => found? name .root (way, node)).congr ?_
  intro way found
  simp only [mem_nodes_iff, found?_eq_some_iff, exists_and_left]

theorem declarations_eq_ok_iff {extraction : Extraction} {source : Path}
    {declarations : List Declaration} :
    extraction.declarations source = .ok declarations ↔
      extraction.error = none ∧ declarations = extraction.found.map (·.declare source) := by
  unfold Extraction.declarations
  cases extraction.error with
  | none => simp [eq_comm]
  | some error => simp

theorem exists_declarations_iff {source : Path} :
    (∃ declarations, (ofDocument document name).declarations source = .ok declarations) ↔
      ∀ way node, Reaches document way node → ¬ Malformed node := by
  simp only [declarations_eq_ok_iff, exists_and_left, exists_eq, and_true,
    ofDocument_error_eq_none_iff]

/-- **The declarations of a document are its enums**, in the order of their ways. -/
theorem enumerates_declarations {source : Path} {declarations : List Declaration}
    (h : (ofDocument document name).declarations source = .ok declarations) :
    Enumerates (List.Lex Step.Before)
      (fun way declaration => ∃ node members, Reaches document way node ∧ IsEnum node members ∧
        declaration = ⟨nameAt name way, members, source⟩) declarations := by
  obtain ⟨hnone, rfl⟩ := declarations_eq_ok_iff.mp h
  refine ((enumerates_found hnone).map (·.declare source)).congr ?_
  intro way declaration
  constructor
  · rintro ⟨_, ⟨node, members, hreaches, henum, rfl⟩, rfl⟩
    exact ⟨node, members, hreaches, henum, rfl⟩
  · rintro ⟨node, members, hreaches, henum, rfl⟩
    exact ⟨_, ⟨node, members, hreaches, henum, rfl⟩, rfl⟩

theorem lex_step_asymm {way other : List Step} (h : List.Lex Step.Before way other) :
    ¬ List.Lex Step.Before other way :=
  List.lex_asymm (fun {_ _} hstep => Nat.lt_asymm hstep) h

theorem defect?_eq_some_iff {error : SchemaError} :
    defect? pointer visit = some error ↔
      ∃ defect, classify visit.2 = .error defect ∧ error = ⟨pointerAt pointer visit.1, defect⟩ := by
  unfold defect?
  split
  · rename_i defect hclassify
    simp [hclassify, eq_comm]
  · rename_i hnone
    exact iff_of_false nofun fun ⟨defect, hdefect, _⟩ => hnone defect hdefect

/-- **The walk through a document stops at the first malformed schema**, and reports its defect. -/
theorem ofDocument_error_eq_some_iff {error : SchemaError} :
    (ofDocument document name).error = some error ↔
      ∃ way node defect, Reaches document way node ∧ classify node = .error defect ∧
        error = ⟨pointerAt .root way, defect⟩ ∧
        ∀ earlier other, Reaches document earlier other → List.Lex Step.Before earlier way →
          ¬ Malformed other := by
  rw [ofDocument, walk_eq, ofVisits]
  show (nodes document).findSome? (defect? .root) = some error ↔ _
  rw [findSome?_eq_some_iff_first (ascending_nodes document) lex_step_asymm]
  simp only [defect?_eq_some_iff, defect?_eq_none_iff, Prod.exists, Prod.forall, mem_nodes_iff]
  constructor
  · rintro ⟨way, node, hreaches, ⟨defect, hdefect, herror⟩, hfirst⟩
    exact ⟨way, node, defect, hreaches, hdefect, herror, hfirst⟩
  · rintro ⟨way, node, defect, hreaches, hdefect, herror, hfirst⟩
    exact ⟨way, node, hreaches, ⟨defect, hdefect, herror⟩, hfirst⟩

end Extraction

end SchemaEnums
