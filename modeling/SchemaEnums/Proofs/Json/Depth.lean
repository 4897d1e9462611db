import SchemaEnums.Proofs.Json.Keys

/-!
# How deep a document is

A reader that may open a number of brackets returns nothing deeper than this number, since each
bracket that it opens leaves one less for what stands behind it.  Adding members to an object does
not make it deeper than the deepest of them.

* `depthOfElements_le_iff`, `depthOfMembers_le_iff`: elements and members are as deep as the deepest
  of them.
* `depth_lt_of_lookup`: what is found in an object is less deep than the object.
* `depth_le_of_parse`: **a document that has been read has at most `maxDepth` nested brackets.**
-/

namespace SchemaEnums.Json

variable {elements : List Json} {members : List (String × Json)} {limit brackets : Nat}
  {value json : Json} {key : String}

theorem depthOfElements_le_iff :
    depthOfElements elements ≤ limit ↔ ∀ element ∈ elements, element.depth ≤ limit := by
  induction elements with
  | nil => simp [depthOfElements]
  | cons element rest ih => rw [depthOfElements, Nat.max_le, ih, List.forall_mem_cons]

theorem depthOfMembers_le_iff :
    depthOfMembers members ≤ limit ↔ ∀ member ∈ members, member.2.depth ≤ limit := by
  induction members with
  | nil => simp [depthOfMembers]
  | cons member rest ih =>
    obtain ⟨key, value⟩ := member
    rw [depthOfMembers, Nat.max_le, ih, List.forall_mem_cons]

theorem depth_lt_of_mem {member : String × Json} (h : member ∈ members) :
    member.2.depth < (object members).depth :=
  Nat.lt_succ_of_le (depthOfMembers_le_iff.mp (Nat.le_refl _) member h)

theorem depth_lt_of_lookup (h : members.lookup key = some value) :
    value.depth < (object members).depth := by
  obtain ⟨front, behind, rfl, -⟩ := List.lookup_eq_some_iff.mp h
  have hmem : (key, value) ∈ front ++ (key, value) :: behind :=
    List.mem_append_right front List.mem_cons_self
  exact depth_lt_of_mem hmem

/-- A value is no deeper than the brackets that a reader of it opens. -/
theorem Readable.depth_le (h : Readable brackets json) : json.depth ≤ brackets := by
  induction h with
  | null | bool _ | number _ | string _ => exact Nat.zero_le _
  | array _ ih => exact Nat.succ_le_succ (depthOfElements_le_iff.mpr ih)
  | @object _ pairs _ ih =>
    obtain ⟨members, hobject, hmembers⟩ := exists_ofPairs_eq pairs
    rw [hobject]
    exact Nat.succ_le_succ (depthOfMembers_le_iff.mpr fun member hmember =>
      ih member (hmembers member hmember))

/-- **A document that has been read has at most `maxDepth` nested brackets.** -/
theorem depth_le_of_parse {text : String} (h : parse text = .ok json) : json.depth ≤ maxDepth :=
  (readable_of_parse h).depth_le

end SchemaEnums.Json
