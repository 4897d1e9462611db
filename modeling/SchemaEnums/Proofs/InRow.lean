import Mathlib.Data.List.Forall2

/-!
# Results in a row

Something is done to the items of a list, one after the other.  It yields a list for each item, or it
fails.  In a row these are all the lists, one behind the other, or the first failure.

* `inRow`: the results in a row.
* `inRow_eq_ok_iff`: **they are what the items yield**, and `exists_inRow_iff`: if no item fails.
* `inRow_eq_error_iff`: **otherwise they are the first failure.**
-/

namespace SchemaEnums

variable {α β ε : Type} {result : α → Except ε (List β)} {item : α} {rest items : List α}
  {all : List β} {error : ε}

/-- What the items of a list yield, one behind the other, or the first failure. -/
def inRow (result : α → Except ε (List β)) : List α → Except ε (List β)
  | [] => .ok []
  | item :: rest =>
    match result item, inRow result rest with
    | .error error, _ => .error error
    | .ok _, .error error => .error error
    | .ok part, .ok more => .ok (part ++ more)

theorem inRow_cons_eq_ok_iff :
    inRow result (item :: rest) = .ok all ↔
      ∃ part more, result item = .ok part ∧ inRow result rest = .ok more ∧ all = part ++ more := by
  rw [inRow]
  cases result item with
  | error found => simp
  | ok part => cases inRow result rest <;> simp [eq_comm]

theorem inRow_cons_eq_error_iff :
    inRow result (item :: rest) = .error error ↔
      result item = .error error ∨
        (∃ part, result item = .ok part) ∧ inRow result rest = .error error := by
  rw [inRow]
  cases result item with
  | error found => simp
  | ok part => cases inRow result rest <;> simp

/-- **Results in a row are what the items yield**, one behind the other. -/
theorem inRow_eq_ok_iff :
    inRow result items = .ok all ↔
      ∃ parts, List.Forall₂ (fun item part => result item = .ok part) items parts ∧
        all = parts.flatten := by
  induction items generalizing all with
  | nil => simp [inRow, List.forall₂_nil_left_iff, eq_comm]
  | cons item rest ih =>
    rw [inRow_cons_eq_ok_iff]
    constructor
    · rintro ⟨part, more, hpart, hmore, rfl⟩
      obtain ⟨parts, hparts, rfl⟩ := ih.mp hmore
      exact ⟨part :: parts, .cons hpart hparts, rfl⟩
    · rintro ⟨_, hparts, rfl⟩
      obtain ⟨part, parts, hpart, hrest, rfl⟩ := List.forall₂_cons_left_iff.mp hparts
      exact ⟨part, parts.flatten, hpart, ih.mpr ⟨parts, hrest, rfl⟩, rfl⟩

theorem exists_inRow_iff :
    (∃ all, inRow result items = .ok all) ↔ ∀ item ∈ items, ∃ part, result item = .ok part := by
  induction items with
  | nil => exact iff_of_true ⟨[], rfl⟩ nofun
  | cons item rest ih =>
    rw [List.forall_mem_cons, ← ih]
    simp only [inRow_cons_eq_ok_iff]
    constructor
    · rintro ⟨_, part, more, hpart, hmore, -⟩
      exact ⟨⟨part, hpart⟩, more, hmore⟩
    · rintro ⟨⟨part, hpart⟩, more, hmore⟩
      exact ⟨_, part, more, hpart, hmore, rfl⟩

/-- **Otherwise the result is the first failure.** -/
theorem inRow_eq_error_iff :
    inRow result items = .error error ↔
      ∃ front item behind, items = front ++ item :: behind ∧
        (∀ earlier ∈ front, ∃ part, result earlier = .ok part) ∧ result item = .error error := by
  induction items with
  | nil => exact iff_of_false nofun (by simp)
  | cons head rest ih =>
    rw [inRow_cons_eq_error_iff, ih]
    constructor
    · rintro (hfails | ⟨hhead, front, item, behind, rfl, hfront, hfails⟩)
      · exact ⟨[], head, rest, rfl, by simp, hfails⟩
      · exact ⟨head :: front, item, behind, rfl, List.forall_mem_cons.mpr ⟨hhead, hfront⟩, hfails⟩
    · rintro ⟨front, item, behind, hsplit, hfront, hfails⟩
      cases front with
      | nil =>
        obtain ⟨rfl, rfl⟩ := List.cons.inj hsplit
        exact Or.inl hfails
      | cons first front =>
        obtain ⟨rfl, rfl⟩ := List.cons.inj hsplit
        obtain ⟨hhead, hfront⟩ := List.forall_mem_cons.mp hfront
        exact Or.inr ⟨hhead, front, item, behind, rfl, hfront, hfails⟩

end SchemaEnums
