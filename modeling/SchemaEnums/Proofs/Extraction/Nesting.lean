import SchemaEnums.Loading
import SchemaEnums.Proofs.Extraction.Visits
import SchemaEnums.Proofs.Json.RoundTrip
import SchemaEnums.Proofs.Pointer

/-!
# How deep a walk goes

The walk through a document has no limit of its own: it goes from a schema to its properties, and
from there on, as deep as the document is.  But a document that has been read is not deep.  A property
of a schema stands in the object of all properties, and this one in the schema, so each property on a
way takes two of the brackets that the reader may open, and a schema at the end may take another one.

* `HasProperties.depth_add_two_le`: a property is two brackets less deep than its schema, and
  `Reaches.depth_add_le`: **so a way through a document uses up two brackets with each step.**
* `walkWithin`: the walk that may only go through so many properties, and `walkWithin_eq_some`: **in
  a document that is not too deep this is the walk.**
* `walkWithin_of_parse`: **no document that has been read leads through more than 63 properties**,
  nor does a pointer in the log or in an error.
-/

namespace SchemaEnums

open Schema

/-- The pointer goes through no more than so many properties. -/
def Pointer.Within (limit : Nat) (pointer : Pointer) : Prop :=
  ∃ names : List String, names.length ≤ limit ∧ pointer = .path names

namespace Schema

variable {node value found : Json} {properties : List (String × Json)} {name : String}
  {way : List Step}

/-- A property is two brackets less deep than the schema that has it. -/
theorem HasProperties.depth_add_two_le (h : HasProperties node properties)
    (hproperty : (name, value) ∈ properties) : value.depth + 2 ≤ node.depth := by
  have hvalue : value.depth < (Json.object properties).depth := Json.depth_lt_of_mem hproperty
  have hproperties : (Json.object properties).depth < node.depth := by
    cases node with
    | object members => exact Json.depth_lt_of_lookup h.2
    | null | bool _ | number _ | string _ | array _ => cases h.2
  omega

/-- **A way through a document uses up two brackets with each step.** -/
theorem Reaches.depth_add_le (h : Reaches node way found) :
    found.depth + 2 * way.length ≤ node.depth := by
  induction h with
  | here => exact Nat.le_refl _
  | @property _ _ _ _ _ _ rest hproperties hvalue _ ih =>
    have hstep := hproperties.depth_add_two_le (List.mem_of_getElem? hvalue)
    rw [List.length_cons]
    omega

end Schema

namespace Extraction

/-! ### A walk with a limit -/

/-- The walk from the schemas of properties, one after the other; `descend` is the walk from each of
them, and `none` says that it would go too deep. -/
def walkEach (descend : Json → String → Pointer → Option Extraction) (parent : Pointer) :
    List (String × Json) → Option Extraction
  | [] => some ⟨[], none⟩
  | (name, value) :: rest =>
    match descend value name (parent.property name) with
    | none => none
    | some ⟨found, some error⟩ => some ⟨found, some error⟩
    | some ⟨found, none⟩ =>
      (walkEach descend parent rest).map fun more => ⟨found ++ more.found, more.error⟩

/-- The walk from one schema, where `descend` is the walk from the schema of a property. -/
def walkWith (descend : Json → String → Pointer → Option Extraction) (value : Json) (name : String)
    (pointer : Pointer) : Option Extraction :=
  match classify value with
  | .error defect => some ⟨[], some ⟨pointer, defect⟩⟩
  | .ok .other => some ⟨[], none⟩
  | .ok (.enumeration members) => some ⟨[⟨name, pointer, members⟩], none⟩
  | .ok (.object properties) => walkEach descend pointer properties

/-- The walk that may go through so many properties; there is none if it would come to a schema that
is deeper. -/
def walkWithin : Nat → Json → String → Pointer → Option Extraction
  | 0 => walkWith fun _ _ _ => none
  | limit + 1 => walkWith (walkWithin limit)

variable {descend : Json → String → Pointer → Option Extraction} {value document : Json}
  {properties : List (String × Json)} {name : String} {pointer : Pointer}

theorem walkEach_eq_some
    (h : ∀ name value, (name, value) ∈ properties → ∀ pointer,
      descend value name pointer = some (walk value name pointer))
    (parent : Pointer) :
    walkEach descend parent properties = some (walkProperties properties parent) := by
  induction properties with
  | nil => rw [walkEach, walkProperties]
  | cons property rest ih =>
    obtain ⟨name, value⟩ := property
    have hfirst := h name value List.mem_cons_self (parent.property name)
    have hrest := ih fun name value hmem => h name value (List.mem_cons_of_mem _ hmem)
    rw [walkEach, walkProperties, hfirst]
    rcases walk value name (parent.property name) with ⟨found, _ | error⟩
    · rw [hrest]
      rfl
    · rfl

theorem walkWith_eq_some
    (h : ∀ properties, HasProperties value properties → ∀ name value, (name, value) ∈ properties →
      ∀ pointer, descend value name pointer = some (walk value name pointer))
    (name : String) (pointer : Pointer) :
    walkWith descend value name pointer = some (walk value name pointer) := by
  rw [walkWith, walk]
  cases hclassify : classify value with
  | error defect => rfl
  | ok schema =>
    cases schema with
    | other => rfl
    | enumeration members => rfl
    | object properties =>
      have hproperties := classify_eq_object_iff.mp hclassify
      exact walkEach_eq_some (h properties hproperties) pointer

/-- **In a document that is not too deep the walk with a limit is the walk.** -/
theorem walkWithin_eq_some (limit : Nat) (h : value.depth ≤ 2 * limit + 1) (name : String)
    (pointer : Pointer) : walkWithin limit value name pointer = some (walk value name pointer) := by
  induction limit generalizing value name pointer with
  | zero =>
    refine walkWith_eq_some ?_ name pointer
    intro properties hproperties name value hmem
    have hstep := hproperties.depth_add_two_le hmem
    omega
  | succ limit ih =>
    refine walkWith_eq_some ?_ name pointer
    intro properties hproperties name value hmem
    have hstep := hproperties.depth_add_two_le hmem
    exact ih (by omega) name

/-! ### Pointers -/

theorem pointerAt_root_eq (way : List Step) : pointerAt .root way = .path (way.map Prod.snd) :=
  List.foldl_map.symm

theorem exists_reaches_of_mem_found {found : Found} (h : found ∈ (ofDocument document name).found) :
    ∃ way node, Reaches document way node ∧ found.pointer = pointerAt .root way := by
  rw [ofDocument, walk_eq, ofVisits] at h
  obtain ⟨⟨way, node⟩, hvisit, hfound⟩ := List.mem_filterMap.mp h
  have hnode := (List.takeWhile_sublist _).subset hvisit
  obtain ⟨members, -, rfl⟩ := found?_eq_some_iff.mp hfound
  exact ⟨way, node, mem_nodes_iff.mp hnode, rfl⟩

theorem exists_reaches_of_error {error : SchemaError}
    (h : (ofDocument document name).error = some error) :
    ∃ way node, Reaches document way node ∧ error.pointer = pointerAt .root way := by
  obtain ⟨way, node, defect, hreaches, -, rfl, -⟩ := ofDocument_error_eq_some_iff.mp h
  exact ⟨way, node, hreaches, rfl⟩

theorem mem_found_of_event {path source : Path} {found : Found}
    (h : Event.found found source ∈ (Loading.ofDocument path document).events) :
    found ∈ (ofDocument document path.schemaName).found := by
  have hevents : Event.found found source ∈
      (ofDocument document path.schemaName).found.map (Event.found · path) := by
    unfold Loading.ofDocument at h
    dsimp only at h
    split at h
    · exact h
    · simpa using h
  obtain ⟨_, hfound, hsame⟩ := List.mem_map.mp hevents
  cases hsame
  exact hfound

theorem error_of_result {path source : Path} {error : SchemaError}
    (h : (Loading.ofDocument path document).result = .error (.invalidSchema source error)) :
    (ofDocument document path.schemaName).error = some error := by
  unfold Loading.ofDocument Extraction.declarations at h
  cases herror : (ofDocument document path.schemaName).error with
  | none => simp [herror] at h
  | some found =>
    simp only [herror] at h
    cases h
    rfl

/-! ### Documents that have been read -/

theorem length_le_of_parse {text : String} (h : Json.parse text = .ok document) {way : List Step}
    {node : Json} (hreaches : Reaches document way node) : way.length ≤ 63 := by
  have hway := hreaches.depth_add_le
  have hdepth : document.depth ≤ 127 := Json.depth_le_of_parse h
  omega

/-- **No document that has been read leads through more than 63 properties.**  Each schema that can
be reached is at most so many properties below the root, so the walk never goes deeper, and every
pointer to an enum in the log or to the defect of a schema goes through at most so many. -/
theorem walkWithin_of_parse {text : String} (h : Json.parse text = .ok document) (name : String)
    (path : Path) :
    (∀ way node, Reaches document way node → way.length ≤ 63) ∧
      walkWithin 63 document name .root = some (ofDocument document name) ∧
      (∀ found source, Event.found found source ∈ (Loading.ofDocument path document).events →
        found.pointer.Within 63) ∧
      ∀ source error,
        (Loading.ofDocument path document).result = .error (.invalidSchema source error) →
          error.pointer.Within 63 := by
  have hwithin : ∀ {way node}, Reaches document way node → (pointerAt .root way).Within 63 := by
    intro way node hreaches
    refine ⟨way.map Prod.snd, ?_, pointerAt_root_eq way⟩
    rw [List.length_map]
    exact length_le_of_parse h hreaches
  refine ⟨fun way node => length_le_of_parse h, ?_, ?_, ?_⟩
  · exact walkWithin_eq_some 63 (Json.depth_le_of_parse h) name .root
  · intro found source hevent
    obtain ⟨way, node, hreaches, hpointer⟩ := exists_reaches_of_mem_found (mem_found_of_event hevent)
    rw [hpointer]
    exact hwithin hreaches
  · intro source error hresult
    obtain ⟨way, node, hreaches, hpointer⟩ := exists_reaches_of_error (error_of_result hresult)
    rw [hpointer]
    exact hwithin hreaches

/-! ### The deepest document -/

/-- A malformed schema below so many properties. -/
def nested : Nat → Json
  | 0 => .object [("enum", .bool true)]
  | count + 1 => .object [("type", .string "object"), ("properties", .object [("p", nested count)])]

theorem floatFree_nested (count : Nat) : (nested count).FloatFree := by
  induction count with
  | zero => simp [nested]
  | succ count ih => simp [nested, ih]

theorem distinctKeys_nested (count : Nat) : (nested count).DistinctKeys := by
  induction count with
  | zero => simp [nested]
  | succ count ih => simp [nested, ih]

theorem depth_nested (count : Nat) : (nested count).depth = 2 * count + 1 := by
  induction count with
  | zero => rfl
  | succ count ih =>
    simp only [nested, Json.depth, Json.depthOfMembers, ih]
    omega

theorem classify_nested (count : Nat) :
    classify (nested (count + 1)) = .ok (.object [("p", nested count)]) :=
  rfl

/-- The walk that may go through all the properties stops at the end of them. -/
theorem walkWithin_nested (count : Nat) (name : String) (pointer : Pointer) :
    walkWithin count (nested count) name pointer =
      some ⟨[], some ⟨(List.replicate count "p").foldl Pointer.property pointer,
        .enumNotArray (.bool true)⟩⟩ := by
  induction count generalizing name pointer with
  | zero => rfl
  | succ count ih =>
    rw [walkWithin, walkWith, classify_nested]
    show walkEach _ _ _ = _
    rw [walkEach, ih]
    rfl

theorem walkWithin_nested_succ (limit : Nat) (name : String) (pointer : Pointer) :
    walkWithin limit (nested (limit + 1)) name pointer = none := by
  induction limit generalizing name pointer with
  | zero =>
    rw [walkWithin, walkWith, classify_nested]
    rfl
  | succ limit ih =>
    rw [walkWithin, walkWith, classify_nested]
    show walkEach _ _ _ = none
    rw [walkEach, ih]

/-- 63 properties can be read, and the walk goes through all of them to the defect at their end. -/
theorem walkWithin_of_parse_nested :
    Json.parse (nested 63).print = .ok (nested 63) ∧
      walkWithin 62 (nested 63) "x" .root = none ∧
      walkWithin 63 (nested 63) "x" .root = some (ofDocument (nested 63) "x") ∧
      (Loading.ofDocument ⟨"x.json"⟩ (nested 63)).result =
        .error (.invalidSchema ⟨"x.json"⟩
          ⟨.path (List.replicate 63 "p"), .enumNotArray (.bool true)⟩) ∧
      (Pointer.path (List.replicate 63 "p")).Within 63 := by
  have hparse : Json.parse (nested 63).print = .ok (nested 63) :=
    Json.parse_print (floatFree_nested 63) (distinctKeys_nested 63) (Nat.le_of_eq (depth_nested 63))
  obtain ⟨-, hwalk, -, herror⟩ := walkWithin_of_parse hparse "x" ⟨"x.json"⟩
  have hdocument : ofDocument (nested 63) "x" =
      ⟨[], some ⟨.path (List.replicate 63 "p"), .enumNotArray (.bool true)⟩⟩ :=
    Option.some.inj (hwalk.symm.trans (walkWithin_nested 63 "x" .root))
  have hname : Path.schemaName ⟨"x.json"⟩ = "x" := by decide
  have hresult : (Loading.ofDocument ⟨"x.json"⟩ (nested 63)).result =
      .error (.invalidSchema ⟨"x.json"⟩
        ⟨.path (List.replicate 63 "p"), .enumNotArray (.bool true)⟩) := by
    rw [Loading.ofDocument, hname, hdocument]
    rfl
  have hwithin := herror ⟨"x.json"⟩ _ hresult
  exact ⟨hparse, walkWithin_nested_succ 62 "x" .root, hwalk, hresult, hwithin⟩

end Extraction

end SchemaEnums
