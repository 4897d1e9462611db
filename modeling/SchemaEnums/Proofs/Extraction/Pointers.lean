import SchemaEnums.Proofs.Extraction.Declared
import SchemaEnums.Proofs.Pointer

/-!
# Where pointers lead

A pointer is followed from the root of a document, token by token: in an object to the member with
this key, in an array to the element at this position.  The pointer that a walk gives to a schema
leads back to it, because a way takes two tokens for each property: from the schema of objects to
its `properties`, and from there to the property.

* `Pointer.resolve?`: what a pointer leads to.
* `resolve?_pointerAt`: **the pointer at the end of a way leads to what the way leads to.**
* `way_eq_of_pointerAt`: **different ways have different pointers.**
-/

namespace SchemaEnums

/-- What a token leads to: the member of an object under this key, or the element of an array at
this position, written in decimal digits without leading zeros. -/
def Json.child? (token : String) : Json → Option Json
  | .object members => members.lookup token
  | .array elements =>
    elements.zipIdx.findSome? fun (element, position) =>
      if Nat.toDigits 10 position = token.toList then some element else none
  | _ => none

/-- What tokens lead to, one after the other. -/
def Json.descend? (node : Json) : List String → Option Json
  | [] => some node
  | token :: rest => (node.child? token).bind (·.descend? rest)

/-- What a pointer leads to in a document. -/
def Pointer.resolve? (pointer : Pointer) (document : Json) : Option Json :=
  pointer.tokens?.bind document.descend?

theorem Json.child?_of_member? {node value : Json} {key : String}
    (h : node.member? key = some value) : node.child? key = some value := by
  cases node with
  | object members => exact h
  | null => cases h
  | bool value => cases h
  | number value => cases h
  | string text => cases h
  | array elements => cases h

open Schema

namespace Extraction

variable {document node found : Json} {way other : List Step}

/-- The tokens of a way: two for each property. -/
def wayTokens (way : List Step) : List String :=
  way.flatMap fun step => ["properties", step.2]

theorem wayTokens_eq (way : List Step) : wayTokens way = Pointer.pathTokens (way.map Prod.snd) := by
  rw [wayTokens, Pointer.pathTokens, List.flatMap_map]

theorem tokens?_pointerAt {pointer : Pointer} {tokens : List String}
    (h : pointer.tokens? = some tokens) (way : List Step) :
    (pointerAt pointer way).tokens? = some (tokens ++ wayTokens way) := by
  have hnames := Pointer.tokens?_foldl_property h (way.map Prod.snd)
  rw [List.foldl_map, ← wayTokens_eq] at hnames
  exact hnames

theorem tokens?_pointerAt_root (way : List Step) :
    (pointerAt .root way).tokens? = some (wayTokens way) :=
  tokens?_pointerAt Pointer.tokens?_root way

/-- The tokens of a way lead to where the way leads, if the keys of objects are distinct. -/
theorem descend?_wayTokens (h : Reaches document way node) (hkeys : document.DistinctKeys) :
    document.descend? (wayTokens way) = some node := by
  induction h with
  | here => rfl
  | @property node value found properties position name rest hproperties hvalue _ ih =>
    have hdistinct := hproperties.distinctKeys hkeys
    have hmember : (name, value) ∈ properties := List.mem_of_getElem? hvalue
    have hopen : node.child? "properties" = some (.object properties) :=
      Json.child?_of_member? hproperties.2
    have hchild : (Json.object properties).child? name = some value :=
      Json.child?_of_member? ((Json.lookup_eq_some_iff_mem hdistinct.nodup_keys).mpr hmember)
    show node.descend? ("properties" :: name :: wayTokens rest) = _
    rw [Json.descend?, hopen, Option.bind_some, Json.descend?, hchild, Option.bind_some]
    exact ih (hdistinct.of_mem hmember)

/-- **The pointer at the end of a way leads to what the way leads to.** -/
theorem resolve?_pointerAt (h : Reaches document way node) (hkeys : document.DistinctKeys) :
    (pointerAt .root way).resolve? document = some node := by
  rw [Pointer.resolve?, tokens?_pointerAt_root, Option.bind_some, descend?_wayTokens h hkeys]

theorem map_snd_eq_of_wayTokens (h : wayTokens way = wayTokens other) :
    way.map Prod.snd = other.map Prod.snd := by
  rw [wayTokens_eq, wayTokens_eq] at h
  exact Pointer.pathTokens_injective h

/-- **Different ways have different pointers**, if the keys of objects are distinct. -/
theorem way_eq_of_pointerAt (hkeys : document.DistinctKeys) (h : Reaches document way node)
    (hother : Reaches document other found)
    (hsame : pointerAt .root way = pointerAt .root other) : way = other := by
  have htokens := congrArg Pointer.tokens? hsame
  rw [tokens?_pointerAt_root, tokens?_pointerAt_root, Option.some.injEq] at htokens
  exact h.way_eq_of_keys hkeys hother (map_snd_eq_of_wayTokens htokens)

end Extraction

end SchemaEnums
