import Mathlib.Data.List.Nodup
import SchemaEnums.Proofs.Extraction.Declared

/-!
# Pruned documents

A document is pruned by taking from each schema what nobody looks at: the schema of objects keeps
its `type` and its `properties`, another one its `enum`, in any order.  The properties stay where
they are, under their names, and each of them is pruned in turn.

* `Prunes`: a document and what may be left of it; `prune`: one way to prune.
* `agrees_of_prunes`: **a pruned document has the same of what is looked at.**
* `declarations_of_prunes`: **it has the same declarations, or the same defect.**
-/

namespace SchemaEnums

namespace Json

variable {members kept : List (String × Json)} {keys : List String} {key : String}

/-- The members under the given keys. -/
def only (keys : List String) (members : List (String × Json)) : List (String × Json) :=
  members.filter (·.1 ∈ keys)

theorem mem_only {member : String × Json} :
    member ∈ only keys members ↔ member ∈ members ∧ member.1 ∈ keys := by
  rw [only, List.mem_filter, decide_eq_true_iff]

theorem nodup_keys_of_perm_only (hdistinct : (members.map Prod.fst).Nodup)
    (hkept : kept.Perm (only keys members)) : (kept.map Prod.fst).Nodup := by
  have honly : ((only keys members).map Prod.fst).Nodup :=
    (List.filter_sublist.map Prod.fst).nodup hdistinct
  exact (hkept.map Prod.fst).nodup_iff.mpr honly

theorem lookup_of_kept (hdistinct : (members.map Prod.fst).Nodup)
    (hkept : kept.Perm (only keys members)) (hkey : key ∈ keys) :
    kept.lookup key = members.lookup key := by
  refine Option.ext fun value => ?_
  rw [lookup_eq_some_iff_mem (nodup_keys_of_perm_only hdistinct hkept),
    lookup_eq_some_iff_mem hdistinct, hkept.mem_iff, mem_only]
  exact and_iff_left hkey

theorem lookup_of_not_kept (hkept : kept.Perm (only keys members)) (hkey : key ∉ keys) :
    kept.lookup key = none := by
  rw [List.lookup_eq_none_iff]
  intro member hmember
  have hmem := (mem_only.mp (hkept.mem_iff.mp hmember)).2
  rw [bne_iff_ne]
  rintro rfl
  exact hkey hmem

end Json

namespace Schema

variable {document pruned : Json} {properties : List (String × Json)}

/-- What may be left of a document. -/
inductive Prunes : Json → Json → Prop
  /-- A value without members is left as it is. -/
  | leaf {node : Json} (hnode : ∀ members, node ≠ .object members) : Prunes node node
  /-- Of a schema of no objects the `enum` is left. -/
  | enum {members kept : List (String × Json)} (hnode : ¬ ObjectTyped (.object members))
      (hkept : kept.Perm (Json.only ["enum"] members)) : Prunes (.object members) (.object kept)
  /-- Of the schema of objects the `type` and the `properties` are left, even if the latter are no
  object. -/
  | defect {members kept : List (String × Json)} (hnode : ObjectTyped (.object members))
      (hnone : ∀ properties, ¬ HasProperties (.object members) properties)
      (hkept : kept.Perm (Json.only ["type", "properties"] members)) :
      Prunes (.object members) (.object kept)
  /-- The properties keep their names and their order, and their schemas are pruned. -/
  | properties {node : Json} {properties others kept : List (String × Json)}
      (hnode : HasProperties node properties)
      (hkeys : properties.map Prod.fst = others.map Prod.fst)
      (hvalues : ∀ (position : Nat) (property counterpart : String × Json),
        properties[position]? = some property → others[position]? = some counterpart →
          Prunes property.2 counterpart.2)
      (hkept : kept.Perm [("type", .string "object"), ("properties", .object others)]) :
      Prunes node (.object kept)

theorem hasProperties_of_perm {kept : List (String × Json)}
    (h : kept.Perm [("type", .string "object"), ("properties", .object properties)]) :
    HasProperties (.object kept) properties := by
  have hkeys : ["type", "properties"].Nodup := by decide
  have hdistinct : (kept.map Prod.fst).Nodup := (h.map Prod.fst).nodup_iff.mpr hkeys
  have hfound {member : String × Json}
      (hmember : member ∈ [("type", .string "object"), ("properties", .object properties)]) :
      kept.lookup member.1 = some member.2 :=
    (Json.lookup_eq_some_iff_mem hdistinct).mpr (h.mem_iff.mpr hmember)
  exact ⟨hfound List.mem_cons_self, hfound (List.mem_cons_of_mem _ List.mem_cons_self)⟩

/-- **A pruned document has the same of what is looked at**, if the keys of objects are distinct. -/
theorem agrees_of_prunes (h : Prunes document pruned) (hdistinct : document.DistinctKeys) :
    Agrees document pruned := by
  induction h with
  | @leaf node hnode =>
    have hobject : ¬ ObjectTyped node := by
      cases node with
      | object members => exact absurd rfl (hnode members)
      | null | bool _ | number _ | string _ | array _ => rintro ⟨⟩
    exact .leaf hobject hobject rfl
  | @enum members kept hnode hkept =>
    have hother : ¬ ObjectTyped (.object kept) := by
      rw [ObjectTyped, Json.member?, Json.lookup_of_not_kept hkept (by decide)]
      exact Option.some_ne_none _ ∘ Eq.symm
    exact .leaf hnode hother (Json.lookup_of_kept hdistinct.nodup_keys hkept (by decide)).symm
  | @defect members kept hnode _ hkept =>
    have hsame {key : String} (hkey : key ∈ ["type", "properties"]) :
        kept.lookup key = members.lookup key :=
      Json.lookup_of_kept hdistinct.nodup_keys hkept hkey
    have hother : ObjectTyped (.object kept) := (hsame (by decide)).trans hnode
    exact .same hnode hother (hsame (by decide)).symm
  | properties hnode hkeys _ hkept ih =>
    refine .properties hnode (hasProperties_of_perm hkept) hkeys ?_
    intro position property counterpart hproperty hcounterpart
    have hinner := (hnode.distinctKeys hdistinct).of_mem (List.mem_of_getElem? hproperty)
    exact ih position property counterpart hproperty hcounterpart hinner

/-! ### Pruning -/

/-- What is left of a schema without properties. -/
def strip : Json → Json
  | .object members =>
    .object (Json.only (if isObjectType members then ["type", "properties"] else ["enum"]) members)
  | leaf => leaf

mutual

/-- What is left of a document. -/
def prune (node : Json) : Json :=
  match _h : classify node with
  | .ok (.object properties) =>
    .object [("type", .string "object"), ("properties", .object (pruneProperties properties))]
  | _ => strip node
termination_by sizeOf node
decreasing_by exact sizeOf_properties _h

/-- The properties of a schema, each of them pruned. -/
def pruneProperties (properties : List (String × Json)) : List (String × Json) :=
  match properties with
  | [] => []
  | (name, value) :: rest => (name, prune value) :: pruneProperties rest
termination_by sizeOf properties

end

theorem map_fst_pruneProperties (properties : List (String × Json)) :
    properties.map Prod.fst = (pruneProperties properties).map Prod.fst := by
  induction properties with
  | nil => rw [pruneProperties]
  | cons head rest ih => rw [pruneProperties, List.map_cons, List.map_cons, ih]

theorem prunes_strip {node : Json} (h : ∀ properties, ¬ HasProperties node properties) :
    Prunes node (strip node) := by
  cases node with
  | object members =>
    rw [strip]
    by_cases hobject : ObjectTyped (.object members)
    · rw [if_pos (isObjectType_iff.mpr hobject)]
      exact .defect hobject h (List.Perm.refl _)
    · rw [if_neg (mt isObjectType_iff.mp hobject)]
      exact .enum hobject (List.Perm.refl _)
  | null | bool _ | number _ | string _ | array _ => exact .leaf nofun

mutual

theorem prunes_prune (node : Json) : Prunes node (prune node) := by
  rw [prune]
  split
  · rename_i properties hclassify
    exact .properties (classify_eq_object_iff.mp hclassify) (map_fst_pruneProperties properties)
      (prunes_pruneProperties properties) (List.Perm.refl _)
  · rename_i hnone
    exact prunes_strip fun properties h => hnone properties (classify_eq_object_iff.mpr h)
termination_by sizeOf node
decreasing_by exact sizeOf_properties (by assumption)

theorem prunes_pruneProperties (properties : List (String × Json)) :
    ∀ (position : Nat) (property counterpart : String × Json),
      properties[position]? = some property →
        (pruneProperties properties)[position]? = some counterpart →
          Prunes property.2 counterpart.2 := by
  cases properties with
  | nil => nofun
  | cons head rest =>
    obtain ⟨name, value⟩ := head
    have hvalue := prunes_prune value
    have hrest := prunes_pruneProperties rest
    intro position property counterpart hproperty hcounterpart
    rw [pruneProperties] at hcounterpart
    cases position with
    | zero =>
      cases hproperty
      cases hcounterpart
      exact hvalue
    | succ position => exact hrest position property counterpart hproperty hcounterpart
termination_by sizeOf properties

end

end Schema

open Schema

namespace Extraction

/-- **Every document can be pruned, and what is left has the same declarations, or the same defect
at the same place**, if the keys of objects are distinct.  What is found on the way to a defect is
the same, too. -/
theorem declarations_of_prunes (document : Json) (hdistinct : document.DistinctKeys) :
    Prunes document (prune document) ∧
      ∀ pruned, Prunes document pruned → ∀ name source,
        (ofDocument pruned name).declarations source =
            (ofDocument document name).declarations source ∧
          (ofDocument pruned name).found = (ofDocument document name).found := by
  refine ⟨prunes_prune document, ?_⟩
  intro pruned hprunes name source
  have hagrees := agrees_of_prunes hprunes hdistinct
  rw [ofDocument, ofDocument, walk_of_agrees hagrees]
  exact ⟨rfl, rfl⟩

/-- A document with annotations, and with enums in places that nobody looks at. -/
def annotated : Json :=
  .object [("$id", .string "s"), ("type", .string "object"),
    ("properties", .object [
      ("b", .object [("items", .object [("enum", .array [.string "I"])]),
        ("enum", .array [.string "B"]), ("type", .string "string")]),
      ("a", .object [("enum", .array [.string "O"]), ("type", .string "object")])])]

/-- What is left of it, with `properties` in front of `type`. -/
def bare : Json :=
  .object [("properties", .object [("b", .object [("enum", .array [.string "B"])]),
    ("a", .object [("type", .string "object")])]), ("type", .string "object")]

theorem prunes_annotated : Prunes annotated bare := by
  refine .properties ⟨rfl, rfl⟩ ?_ ?_ (List.Perm.swap _ _ [])
  · rfl
  intro position property counterpart hproperty hcounterpart
  match position with
  | 0 =>
    cases hproperty
    cases hcounterpart
    exact .enum (by simp [ObjectTyped, Json.member?, List.lookup_cons]) (List.Perm.refl _)
  | 1 =>
    cases hproperty
    cases hcounterpart
    exact .defect rfl (by simp [HasProperties, Json.member?, List.lookup_cons]) (List.Perm.refl _)
  | _ + 2 => cases hproperty

/-- The defect of `a` is that of the annotated document, and so is the enum in front of it. -/
theorem declarations_of_prunes_annotated :
    annotated.DistinctKeys ∧ Prunes annotated bare ∧
      (ofDocument bare "x").declarations ⟨"x.json"⟩ =
        (ofDocument annotated "x").declarations ⟨"x.json"⟩ ∧
      (ofDocument annotated "x").declarations ⟨"x.json"⟩ =
        .error ⟨⟨"#/properties/a"⟩, .missingProperties⟩ ∧
      (ofDocument bare "x").found = [⟨"b", ⟨"#/properties/b"⟩, ["B"]⟩] := by
  have hdistinct : annotated.DistinctKeys := by simp [annotated]
  have herror : (ofDocument annotated "x").declarations ⟨"x.json"⟩ =
      .error ⟨⟨"#/properties/a"⟩, .missingProperties⟩ := by
    with_unfolding_all rfl
  have hfound : (ofDocument annotated "x").found = [⟨"b", ⟨"#/properties/b"⟩, ["B"]⟩] := by
    with_unfolding_all rfl
  obtain ⟨-, hpruned⟩ := declarations_of_prunes annotated hdistinct
  obtain ⟨hsame, hsameFound⟩ := hpruned bare prunes_annotated "x" ⟨"x.json"⟩
  exact ⟨hdistinct, prunes_annotated, hsame, herror, hsameFound.trans hfound⟩

end Extraction

end SchemaEnums
