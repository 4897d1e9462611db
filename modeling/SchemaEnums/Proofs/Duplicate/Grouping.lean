import Mathlib.Algebra.BigOperators.Group.List.Lemmas
import Mathlib.Algebra.GroupWithZero.Nat
import SchemaEnums.Proofs.Duplicate

/-!
# Names grouped in one pass

Repeated names are found in one pass over the declarations.  The pass keeps a group for each name
that it has come to: the file of a declaration is added to the group of its name, and a new name
opens a group behind the others.  In the end the groups with more than one file are kept.

* `addTo`: what the pass does with one declaration.
* `addTo_groups`: **it keeps one group for each name so far**, in the order of the first
  declarations and with the files of all of them.
* `foldl_addTo`: so these are the groups at the end of the pass.
* `ofDeclarations_groups`: **the groups with more than one file are the repeated names**, each of
  them once, and the files in them are counted as often as declarations share their name.
-/

namespace SchemaEnums.Duplicate

variable {declarations : List Declaration} {declaration : Declaration} {name : String}

/-- Adds the file of a declaration to the group of its name.  A name without a group gets one behind
the others. -/
def addTo : List Duplicate → Declaration → List Duplicate
  | [], declaration => [⟨declaration.name, [declaration.source]⟩]
  | group :: rest, declaration =>
    if group.name = declaration.name then
      ⟨group.name, group.sources ++ [declaration.source]⟩ :: rest
    else group :: addTo rest declaration

/-- The groups of all names, in the order of their first declarations. -/
def groups (declarations : List Declaration) : List Duplicate :=
  (names declarations).map (ofName declarations)

/-! ### One declaration more -/

theorem nodup_names (declarations : List Declaration) : (names declarations).Nodup := by
  induction declarations with
  | nil => exact List.nodup_nil
  | cons declaration rest ih =>
    rw [names, List.nodup_cons]
    exact ⟨by simp, ih.filter _⟩

/-- A name that has been declared stays where it is, and a new one is the last. -/
theorem names_concat (declarations : List Declaration) (declaration : Declaration) :
    names (declarations ++ [declaration]) =
      names declarations ++ if declaration.name ∈ names declarations then [] else [declaration.name] := by
  induction declarations with
  | nil => simp [names]
  | cons first rest ih =>
    rw [List.cons_append, names, names, ih, List.filter_append, List.cons_append]
    by_cases hname : declaration.name = first.name
    · simp [hname]
    · by_cases hmem : declaration.name ∈ names rest
      · simp [hname, hmem]
      · simp [hname, hmem]

theorem ofName_concat_of_eq (h : name = declaration.name) :
    ofName (declarations ++ [declaration]) name =
      ⟨name, (ofName declarations name).sources ++ [declaration.source]⟩ := by
  simp [ofName, List.filter_append, h]

theorem ofName_concat_of_ne (h : name ≠ declaration.name) :
    ofName (declarations ++ [declaration]) name = ofName declarations name := by
  simp [ofName, List.filter_append, Ne.symm h]

theorem sources_ofName_of_notMem (h : name ∉ names declarations) :
    (ofName declarations name).sources = [] := by
  rw [← List.length_eq_zero_iff, length_sources_ofName]
  exact List.count_eq_zero_of_not_mem (mt mem_names_iff.mpr h)

theorem addTo_of_notMem {others : List String} (h : declaration.name ∉ others) :
    addTo (others.map (ofName declarations)) declaration =
      others.map (ofName (declarations ++ [declaration])) ++
        [⟨declaration.name, [declaration.source]⟩] := by
  induction others with
  | nil => rfl
  | cons other rest ih =>
    obtain ⟨hother, hrest⟩ := not_or.mp (mt List.mem_cons.mpr h)
    have hsame : (ofName declarations other).name ≠ declaration.name := Ne.symm hother
    rw [List.map_cons, addTo, if_neg hsame, ih hrest, List.map_cons,
      ofName_concat_of_ne (Ne.symm hother), List.cons_append]

theorem addTo_of_mem {others : List String} (hdistinct : others.Nodup)
    (h : declaration.name ∈ others) :
    addTo (others.map (ofName declarations)) declaration =
      others.map (ofName (declarations ++ [declaration])) := by
  induction others with
  | nil => cases h
  | cons other rest ih =>
    obtain ⟨hnotMem, hdistinct⟩ := List.nodup_cons.mp hdistinct
    by_cases hother : other = declaration.name
    · have hrest : rest.map (ofName (declarations ++ [declaration])) =
          rest.map (ofName declarations) := by
        refine List.map_congr_left fun name hname => ofName_concat_of_ne ?_
        rintro rfl
        exact hnotMem (hother ▸ hname)
      have hsame : (ofName declarations other).name = declaration.name := hother
      rw [List.map_cons, addTo, if_pos hsame, List.map_cons, ofName_concat_of_eq hother, hrest]
      rfl
    · have hmem : declaration.name ∈ rest := (List.mem_cons.mp h).resolve_left (Ne.symm hother)
      have hne : (ofName declarations other).name ≠ declaration.name := hother
      rw [List.map_cons, addTo, if_neg hne, ih hdistinct hmem, List.map_cons,
        ofName_concat_of_ne hother]

/-- **The pass keeps one group for each name so far.** -/
theorem addTo_groups (declarations : List Declaration) (declaration : Declaration) :
    addTo (groups declarations) declaration = groups (declarations ++ [declaration]) := by
  rw [groups, groups, names_concat]
  by_cases hmem : declaration.name ∈ names declarations
  · rw [if_pos hmem, List.append_nil]
    exact addTo_of_mem (nodup_names declarations) hmem
  · rw [if_neg hmem, addTo_of_notMem hmem, List.map_append, List.map_singleton,
      ofName_concat_of_eq rfl, sources_ofName_of_notMem hmem, List.nil_append]

/-- At the end of the pass there is one group for each name. -/
theorem foldl_addTo (declarations : List Declaration) :
    declarations.foldl addTo [] = groups declarations := by
  -- the pass may start behind any declarations that have been grouped
  have hbehind : ∀ front, declarations.foldl addTo (groups front) = groups (front ++ declarations) := by
    induction declarations with
    | nil => exact fun front => congrArg groups (List.append_nil front).symm
    | cons declaration rest ih =>
      intro front
      rw [List.foldl_cons, addTo_groups, ih, ← List.append_cons]
  exact hbehind []

/-! ### The groups that are kept -/

theorem ofDeclarations_eq (declarations : List Declaration) :
    ofDeclarations declarations =
      ((names declarations).filter fun name => 2 ≤ (declarations.map (·.name)).count name).map
        (ofName declarations) := by
  rw [ofDeclarations, List.filter_map]
  congr 1
  refine List.filter_congr fun name _ => ?_
  rw [Function.comp_apply, length_sources_ofName]
  rfl

theorem map_name_ofDeclarations (declarations : List Declaration) :
    (ofDeclarations declarations).map (·.name) =
      (names declarations).filter fun name => 2 ≤ (declarations.map (·.name)).count name := by
  rw [ofDeclarations_eq, List.map_map]
  exact List.map_id _

theorem sum_length_sources (declarations : List Declaration) :
    ((ofDeclarations declarations).map (·.sources.length)).sum =
      declarations.countP fun declaration =>
        2 ≤ (declarations.map (·.name)).count declaration.name := by
  have hlengths : (fun duplicate : Duplicate => duplicate.sources.length) ∘ ofName declarations =
      fun name => (declarations.map (·.name)).count name :=
    funext fun name => length_sources_ofName declarations name
  have hnames : (names declarations).Perm (declarations.map (·.name)).dedup := by
    refine (List.perm_ext_iff_of_nodup (nodup_names declarations) (List.nodup_dedup _)).mpr ?_
    intro name
    rw [mem_names_iff, List.mem_dedup]
  rw [ofDeclarations_eq, List.map_map, hlengths, ((hnames.filter _).map _).sum_eq,
    List.sum_map_count_dedup_filter_eq_countP, List.countP_map]
  rfl

/-- **The groups with more than one file are the repeated names**: each name that is declared at
least twice is listed once, and no other name; they come in the order of their first declarations,
each with the files of all its declarations.  So none is listed exactly if all names are distinct,
and the files that are listed are as many as the declarations that share their name. -/
theorem ofDeclarations_groups (declarations : List Declaration) :
    ofDeclarations declarations =
        (declarations.foldl addTo []).filter (1 < ·.sources.length) ∧
      ((ofDeclarations declarations).map (·.name)).Nodup ∧
      (∀ name, name ∈ (ofDeclarations declarations).map (·.name) ↔
        2 ≤ (declarations.map (·.name)).count name) ∧
      Enumerates Nat.lt (RepeatedFrom declarations) (ofDeclarations declarations) ∧
      (ofDeclarations declarations = [] ↔ (declarations.map (·.name)).Nodup) ∧
      ((ofDeclarations declarations).map (·.sources.length)).sum =
        declarations.countP fun declaration =>
          2 ≤ (declarations.map (·.name)).count declaration.name := by
  refine ⟨?_, ?_, ?_, enumerates_ofDeclarations declarations, ofDeclarations_eq_nil_iff,
    sum_length_sources declarations⟩
  · rw [foldl_addTo]
    rfl
  · rw [map_name_ofDeclarations]
    exact (nodup_names declarations).filter _
  · intro name
    rw [map_name_ofDeclarations, List.mem_filter, decide_eq_true_eq, mem_names_iff]
    refine and_iff_right_of_imp fun hcount => ?_
    exact List.count_pos_iff.mp (Nat.lt_of_lt_of_le Nat.zero_lt_two hcount)

/-- Repeated names in turn, one of them twice in a file, and a name of one declaration. -/
example :
    ofDeclarations [⟨"status", ["A"], ⟨"a.json"⟩⟩, ⟨"kind", ["A"], ⟨"a.json"⟩⟩,
        ⟨"unique", ["A"], ⟨"b.json"⟩⟩, ⟨"kind", ["A"], ⟨"b.json"⟩⟩, ⟨"status", ["A"], ⟨"c.json"⟩⟩,
        ⟨"status", ["A"], ⟨"c.json"⟩⟩] =
      [⟨"status", [⟨"a.json"⟩, ⟨"c.json"⟩, ⟨"c.json"⟩]⟩, ⟨"kind", [⟨"a.json"⟩, ⟨"b.json"⟩]⟩] := by
  decide

end SchemaEnums.Duplicate
