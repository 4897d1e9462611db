import Mathlib.Data.List.Nodup
import SchemaEnums.Duplicate
import SchemaEnums.Proofs.Enumeration

/-!
# When names are repeated

* `mem_names_iff`: the names of declarations are those that a declaration has.
* `ofDeclarations_eq_nil_iff`: **no name is repeated exactly if the names are distinct.**
* `FirstAt`, `RepeatedFrom`: where a name is declared first, and that it is declared again.
* `enumerates_ofDeclarations`: **the repeated names are listed in the order of their first
  declarations**, each once and with the files of all its declarations.
-/

namespace SchemaEnums.Duplicate

variable {declarations : List Declaration} {name : String}

theorem mem_names_iff : name ∈ names declarations ↔ name ∈ declarations.map (·.name) := by
  induction declarations with
  | nil => simp [names]
  | cons declaration rest ih =>
    rw [names, List.map_cons, List.mem_cons, List.mem_cons, List.mem_filter, ih]
    by_cases heq : name = declaration.name
    · simp [heq]
    · simp [heq]

theorem length_sources_ofName (declarations : List Declaration) (name : String) :
    (ofName declarations name).sources.length = (declarations.map (·.name)).count name := by
  rw [ofName, List.length_map, List.count_eq_countP, List.countP_map, List.countP_eq_length_filter]
  rfl

/-- **No name is repeated exactly if the names are distinct.** -/
theorem ofDeclarations_eq_nil_iff :
    ofDeclarations declarations = [] ↔ (declarations.map (·.name)).Nodup := by
  rw [ofDeclarations, List.filter_eq_nil_iff, List.forall_mem_map, List.nodup_iff_count_le_one]
  simp only [length_sources_ofName, decide_eq_true_eq, Nat.not_lt, mem_names_iff]
  constructor
  · intro h name
    by_cases hmem : name ∈ declarations.map (·.name)
    · exact h name hmem
    · have hzero : (declarations.map (·.name)).count name = 0 := List.count_eq_zero_of_not_mem hmem
      omega
  · intro h name _
    exact h name

/-! ### The order of repeated names -/

/-- The declaration at a position is the first one with the given name. -/
def FirstAt (declarations : List Declaration) (position : Nat) (name : String) : Prop :=
  (∃ declaration, declarations[position]? = some declaration ∧ declaration.name = name) ∧
    ∀ earlier ∈ declarations.take position, earlier.name ≠ name

/-- A name is declared first at a position, and at least twice in all, in the given files: one for
each declaration, in their order. -/
def RepeatedFrom (declarations : List Declaration) (position : Nat) (duplicate : Duplicate) :
    Prop :=
  FirstAt declarations position duplicate.name ∧
    2 ≤ (declarations.map (·.name)).count duplicate.name ∧
    duplicate.sources = (declarations.filter (·.name = duplicate.name)).map (·.source)

theorem firstAt_cons_zero {declaration : Declaration} :
    FirstAt (declaration :: declarations) 0 name ↔ name = declaration.name := by
  simp [FirstAt, eq_comm]

theorem firstAt_cons_succ {declaration : Declaration} {position : Nat} :
    FirstAt (declaration :: declarations) (position + 1) name ↔
      FirstAt declarations position name ∧ name ≠ declaration.name := by
  simp only [FirstAt, List.getElem?_cons_succ, List.take_succ_cons, List.forall_mem_cons, ne_eq,
    eq_comm (a := declaration.name)]
  tauto

theorem enumerates_names (declarations : List Declaration) :
    Enumerates Nat.lt (FirstAt declarations) (names declarations) := by
  induction declarations with
  | nil => exact ⟨[], List.Pairwise.nil, by simp [FirstAt], rfl⟩
  | cons declaration rest ih =>
    obtain ⟨listed, hascending, hmem, hnames⟩ := ih
    -- the first declaration comes to position 0, and the others with other names move on by one
    let others := listed.filter fun entry => entry.2 ≠ declaration.name
    refine ⟨(0, declaration.name) :: others.map fun entry => (entry.1 + 1, entry.2), ?_, ?_, ?_⟩
    · refine List.pairwise_cons.mpr ⟨?_, ?_⟩
      · intro entry hentry
        obtain ⟨earlier, -, rfl⟩ := List.mem_map.mp hentry
        exact Nat.succ_pos _
      · exact List.pairwise_map.mpr ((hascending.filter _).imp fun hlt => Nat.succ_lt_succ hlt)
    · intro position name
      cases position with
      | zero => simp [firstAt_cons_zero]
      | succ position =>
        rw [firstAt_cons_succ, ← hmem]
        simp [others]
    · rw [names, hnames, List.map_cons, List.map_map, List.filter_map]
      rfl

/-- **The repeated names are listed in the order of their first declarations**, each once and with
the files of all its declarations. -/
theorem enumerates_ofDeclarations (declarations : List Declaration) :
    Enumerates Nat.lt (RepeatedFrom declarations) (ofDeclarations declarations) := by
  refine (((enumerates_names declarations).map (ofName declarations)).filter _).congr ?_
  intro position duplicate
  simp only [decide_eq_true_eq, RepeatedFrom]
  constructor
  · rintro ⟨⟨name, hfirst, rfl⟩, hlength⟩
    rw [length_sources_ofName] at hlength
    exact ⟨hfirst, hlength, rfl⟩
  · rintro ⟨hfirst, hcount, hsources⟩
    have hname : duplicate = ofName declarations duplicate.name := by
      obtain ⟨name, sources⟩ := duplicate
      exact congrArg (Duplicate.mk name) hsources
    refine ⟨⟨duplicate.name, hfirst, hname⟩, ?_⟩
    rw [hname, length_sources_ofName]
    exact hcount

end SchemaEnums.Duplicate
