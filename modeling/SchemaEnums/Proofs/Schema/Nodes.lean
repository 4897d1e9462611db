import SchemaEnums.Proofs.Enumeration
import SchemaEnums.Proofs.Schema.Classification

/-!
# The schemas of a document

Schemas are reached from the root of a document through the properties of the schemas of objects,
and through nothing else.  A way to one is the list of its steps.

* `Schema.Reaches`: what can be reached, and on which way, said without a walk.
* `Schema.nodes`: the schemas in the order in which a walk comes to them.
* `mem_nodes_iff`: **these are the schemas that can be reached.**
* `ascending_nodes`: **their ways ascend**, position by position.
-/

namespace SchemaEnums.Schema

/-- A step to a property: its position among the properties, and its name. -/
abbrev Step := Nat × String

/-- The order of steps, which is that of the document. -/
def Step.Before (step other : Step) : Prop := step.1 < other.1

/-- From a schema a way leads to another one. -/
inductive Reaches : Json → List Step → Json → Prop
  | here (node : Json) : Reaches node [] node
  | property {node value found : Json} {properties : List (String × Json)} {position : Nat}
      {name : String} {rest : List Step} (hproperties : HasProperties node properties)
      (hvalue : properties[position]? = some (name, value)) (hrest : Reaches value rest found) :
      Reaches node ((position, name) :: rest) found

mutual

/-- A schema and all that are reached from it, with their ways. -/
def nodes (node : Json) : List (List Step × Json) :=
  ([], node) ::
    match _h : classify node with
    | .ok (.object properties) => nodesOfProperties 0 properties
    | _ => []
termination_by sizeOf node
decreasing_by exact sizeOf_properties _h

/-- The schemas of properties, the first of which has the given position, and all that are reached
from them. -/
def nodesOfProperties (position : Nat) (properties : List (String × Json)) :
    List (List Step × Json) :=
  match properties with
  | [] => []
  | (name, value) :: rest =>
    below (position, name) (nodes value) ++ nodesOfProperties (position + 1) rest
termination_by sizeOf properties

end

variable {node found : Json} {properties : List (String × Json)} {way : List Step}

/-! ### Which schemas are reached -/

theorem nodes_of_hasProperties (h : HasProperties node properties) :
    nodes node = ([], node) :: nodesOfProperties 0 properties := by
  rw [nodes, classify_eq_object_iff.mpr h]

theorem nodes_of_leaf (h : ∀ properties, ¬ HasProperties node properties) :
    nodes node = [([], node)] := by
  rw [nodes]
  split
  · rename_i properties hclassify
    exact absurd (classify_eq_object_iff.mp hclassify) (h properties)
  · rfl

theorem mem_nodes_iff_or : (way, found) ∈ nodes node ↔
    (way, found) = ([], node) ∨
      ∃ properties, HasProperties node properties ∧
        (way, found) ∈ nodesOfProperties 0 properties := by
  by_cases hobject : ∃ properties, HasProperties node properties
  · obtain ⟨properties, hproperties⟩ := hobject
    rw [nodes_of_hasProperties hproperties, List.mem_cons]
    refine or_congr_right ⟨fun h => ⟨properties, hproperties, h⟩, ?_⟩
    rintro ⟨others, hothers, h⟩
    rwa [hproperties.unique hothers]
  · rw [nodes_of_leaf (not_exists.mp hobject), List.mem_singleton]
    exact (or_iff_left fun ⟨properties, h, _⟩ => hobject ⟨properties, h⟩).symm

theorem mem_nodesOfProperties_iff {position : Nat} :
    (way, found) ∈ nodesOfProperties position properties ↔
      ∃ i name value rest, properties[i]? = some (name, value) ∧
        way = (position + i, name) :: rest ∧ (rest, found) ∈ nodes value := by
  induction properties generalizing position with
  | nil => simp [nodesOfProperties]
  | cons head tail ih =>
    obtain ⟨name, value⟩ := head
    rw [nodesOfProperties, List.mem_append, mem_below, ih]
    constructor
    · rintro (⟨rest, hway, hvisit⟩ | ⟨i, n, v, rest, hv, hway, hvisit⟩)
      · exact ⟨0, name, value, rest, rfl, hway, hvisit⟩
      · exact ⟨i + 1, n, v, rest, hv, by rw [hway]; congr 2; omega, hvisit⟩
    · rintro ⟨i, n, v, rest, hv, hway, hvisit⟩
      cases i with
      | zero =>
        cases hv
        exact Or.inl ⟨rest, hway, hvisit⟩
      | succ i => exact Or.inr ⟨i, n, v, rest, hv, by rw [hway]; congr 2; omega, hvisit⟩

/-- **The schemas of a document are those that can be reached.** -/
theorem mem_nodes_iff : (way, found) ∈ nodes node ↔ Reaches node way found := by
  -- by the steps of the way: each of them picks one property
  induction way generalizing node with
  | nil =>
    rw [mem_nodes_iff_or]
    constructor
    · rintro (hroot | ⟨properties, -, h⟩)
      · cases hroot
        exact .here _
      · obtain ⟨_, _, _, _, -, hway, -⟩ := mem_nodesOfProperties_iff.mp h
        cases hway
    · rintro ⟨⟩
      exact Or.inl rfl
  | cons step rest ih =>
    rw [mem_nodes_iff_or]
    constructor
    · rintro (hroot | ⟨properties, hproperties, h⟩)
      · cases hroot
      · obtain ⟨position, name, value, _, hvalue, hway, hvisit⟩ := mem_nodesOfProperties_iff.mp h
        rw [Nat.zero_add] at hway
        cases hway
        exact .property hproperties hvalue (ih.mp hvisit)
    · intro h
      cases h with
      | @property _ value _ properties position name _ hproperties hvalue hrest =>
        refine Or.inr ⟨properties, hproperties, mem_nodesOfProperties_iff.mpr ?_⟩
        exact ⟨position, name, value, rest, hvalue, by rw [Nat.zero_add], ih.mpr hrest⟩

/-! ### In which order -/

theorem exists_later_of_mem_nodesOfProperties {position : Nat} {visit : List Step × Json}
    (h : visit ∈ nodesOfProperties position properties) :
    ∃ later rest, visit.1 = later :: rest ∧ position ≤ later.1 := by
  obtain ⟨i, name, value, rest, -, hway, -⟩ := mem_nodesOfProperties_iff.mp h
  exact ⟨_, rest, hway, Nat.le_add_right position i⟩

mutual

/-- **The ways to the schemas of a document ascend.** -/
theorem ascending_nodes (node : Json) : Ascending Step.Before (nodes node) := by
  by_cases hobject : ∃ properties, HasProperties node properties
  · obtain ⟨properties, hproperties⟩ := hobject
    rw [nodes_of_hasProperties hproperties]
    refine (ascending_nodesOfProperties 0 properties).cons_node (fun visit hvisit => ?_) node
    obtain ⟨_, _, hway, -⟩ := exists_later_of_mem_nodesOfProperties hvisit
    rw [hway]
    exact List.cons_ne_nil _ _
  · rw [nodes_of_leaf (not_exists.mp hobject)]
    exact List.pairwise_singleton _ _
termination_by sizeOf node
decreasing_by exact sizeOf_properties (classify_eq_object_iff.mpr hproperties)

theorem ascending_nodesOfProperties (position : Nat) (properties : List (String × Json)) :
    Ascending Step.Before (nodesOfProperties position properties) := by
  cases properties with
  | nil =>
    rw [nodesOfProperties]
    exact List.Pairwise.nil
  | cons head rest =>
    obtain ⟨name, value⟩ := head
    rw [nodesOfProperties]
    refine (ascending_nodes value).below_append
      (ascending_nodesOfProperties (position + 1) rest) ?_
    intro visit hvisit
    exact exists_later_of_mem_nodesOfProperties hvisit
termination_by sizeOf properties

end

end SchemaEnums.Schema
