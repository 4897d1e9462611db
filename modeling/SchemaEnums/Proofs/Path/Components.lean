import SchemaEnums.Proofs.Path.Bytes

/-!
# The components of a path

The components of a path are read off its segments one by one; only the first segment is read in a
way of its own.  So a name behind a directory is one more component, however the directory is
written, and the last component of a path is its last segment if that is a name.

* `Component.Normal`: a segment that is the name of an entry.
* `components_eq`: **the components of a path are those of its segments.**
* `components_eq_named_iff`: **a text is its own and only component exactly if it is a name.**
* `components_join`: **a name behind a directory is one component more.**
* `fileName?_of_getLast?`: **the last component of a path is its last segment**, if that is a name.
-/

namespace SchemaEnums.Path

/-- A segment that is the name of an entry. -/
structure Component.Normal (segment : List Char) : Prop where
  ne_nil : segment ≠ []
  ne_dot : segment ≠ ['.']
  ne_dots : segment ≠ ['.', '.']
  slash_notMem : '/' ∉ segment

/-- The step of the first segment of a path that is not empty. -/
def Component.leading? (segment : List Char) : Option Component :=
  if segment = [] then some .root
  else if segment = ['.'] then some .current
  else ofSegment? segment

variable {path : Path} {text segment name first : List Char} {rest : List (List Char)}

/-! ### Segments -/

namespace Component

theorem ofSegment?_eq_named_iff (hslash : '/' ∉ segment) :
    ofSegment? segment = some (.named name) ↔ name = segment ∧ Normal segment := by
  constructor
  · intro h
    unfold ofSegment? at h
    split at h
    · cases h
    · rename_i hidle
      obtain ⟨hnil, hdot⟩ := not_or.mp hidle
      split at h
      · cases h
      · rename_i hdots
        cases h
        exact ⟨rfl, hnil, hdot, hdots, hslash⟩
  · rintro ⟨rfl, hnormal⟩
    rw [ofSegment?, if_neg (not_or.mpr ⟨hnormal.ne_nil, hnormal.ne_dot⟩), if_neg hnormal.ne_dots]

theorem leading?_eq_named_iff (hslash : '/' ∉ segment) :
    leading? segment = some (.named name) ↔ name = segment ∧ Normal segment := by
  rw [← ofSegment?_eq_named_iff hslash]
  unfold leading?
  split
  · rename_i hnil
    simp [hnil, ofSegment?]
  · split
    · rename_i hdot
      simp [hdot, ofSegment?]
    · rfl

theorem Normal.ofSegment?_eq (h : Normal segment) : ofSegment? segment = some (.named segment) :=
  (ofSegment?_eq_named_iff h.slash_notMem).mpr ⟨rfl, h⟩

theorem Normal.leading?_eq (h : Normal segment) : leading? segment = some (.named segment) :=
  (leading?_eq_named_iff h.slash_notMem).mpr ⟨rfl, h⟩

end Component

/-! ### Components -/

/-- **The components of a path are those of its segments**, the first of which is read in a way of its
own. -/
theorem components_eq (hsegments : path.text.toList.splitOn '/' = first :: rest)
    (hne : ¬ (first = [] ∧ rest = [])) :
    path.components =
      (Component.leading? first).toList ++ rest.filterMap Component.ofSegment? := by
  unfold components
  rw [hsegments]
  split
  · rename_i hnil
    cases hnil
  · rename_i hsingle
    cases hsingle
    exact absurd ⟨rfl, rfl⟩ hne
  · rename_i hroot
    cases hroot
    rfl
  · rename_i hdot
    cases hdot
    rfl
  · rename_i hroot hdot
    have hempty : first ≠ [] := fun heq => hroot rest (by rw [heq])
    have hcurrent : first ≠ ['.'] := fun heq => hdot rest (by rw [heq])
    rw [Component.leading?, if_neg hempty, if_neg hcurrent, List.filterMap_cons]
    cases Component.ofSegment? first <;> rfl

theorem components_of_nil (h : path.text.toList = []) : path.components = [] := by
  rw [components, h]
  rfl

/-- The empty segment is the only one of the empty path alone. -/
theorem segments_ne_of_ne_nil (h : path.text.toList ≠ [])
    (hsegments : path.text.toList.splitOn '/' = first :: rest) : ¬ (first = [] ∧ rest = []) := by
  rintro ⟨rfl, rfl⟩
  have hback : ['/'].intercalate (path.text.toList.splitOn '/') = path.text.toList :=
    List.intercalate_splitOn '/'
  rw [hsegments] at hback
  exact h hback.symm

theorem normal_of_mem_components (h : .named name ∈ path.components) : Component.Normal name := by
  by_cases hempty : path.text.toList = []
  · rw [components_of_nil hempty] at h
    cases h
  obtain ⟨first, rest, hsegments⟩ :=
    List.exists_cons_of_ne_nil (List.splitOn_ne_nil '/' path.text.toList)
  have hcomponents := components_eq hsegments (segments_ne_of_ne_nil hempty hsegments)
  have hslash : ∀ segment ∈ first :: rest, '/' ∉ segment := by
    intro segment hsegment
    rw [← hsegments] at hsegment
    exact notMem_of_mem_splitOn hsegment
  rw [hcomponents, List.mem_append, Option.mem_toList] at h
  rcases h with hfirst | hrest
  · obtain ⟨rfl, hnormal⟩ :=
      (Component.leading?_eq_named_iff (hslash first List.mem_cons_self)).mp hfirst
    exact hnormal
  · obtain ⟨segment, hsegment, hnamed⟩ := List.mem_filterMap.mp hrest
    obtain ⟨rfl, hnormal⟩ := (Component.ofSegment?_eq_named_iff
      (hslash segment (List.mem_cons_of_mem _ hsegment))).mp hnamed
    exact hnormal

theorem getLast?_components (h : (path.text.toList.splitOn '/').getLast? = some segment)
    (hnormal : Component.Normal segment) : path.components.getLast? = some (.named segment) := by
  obtain ⟨front, hsegments⟩ := List.getLast?_eq_some_iff.mp h
  cases front with
  | nil =>
    have hne : ¬ (segment = [] ∧ ([] : List (List Char)) = []) := fun hnil =>
      hnormal.ne_nil hnil.1
    rw [components_eq hsegments hne, hnormal.leading?_eq]
    rfl
  | cons first rest =>
    rw [List.cons_append] at hsegments
    have hne : ¬ (first = [] ∧ rest ++ [segment] = []) := fun hnil => by simp at hnil
    rw [components_eq hsegments hne, List.filterMap_append, List.filterMap_cons,
      hnormal.ofSegment?_eq, List.filterMap_nil, ← List.append_assoc, List.getLast?_concat]

/-- **The last component of a path is its last segment**, if that is a name. -/
theorem fileName?_of_getLast? (h : (path.text.toList.splitOn '/').getLast? = some segment)
    (hnormal : Component.Normal segment) : path.fileName? = some (.ofList segment) := by
  rw [fileName?, getLast?_components h hnormal]

/-- **A text is its own and only component exactly if it is a name.** -/
theorem components_eq_named_iff :
    path.components = [.named path.text.toList] ↔ Component.Normal path.text.toList := by
  constructor
  · intro h
    have hmem : .named path.text.toList ∈ path.components := by
      rw [h]
      exact List.mem_singleton_self _
    exact normal_of_mem_components hmem
  · intro hnormal
    have hsegments : path.text.toList.splitOn '/' = [path.text.toList] :=
      List.splitOn_eq_singleton hnormal.slash_notMem
    rw [components_eq hsegments fun hnil => hnormal.ne_nil hnil.1, hnormal.leading?_eq]
    rfl

theorem fileName?_of_normal {name : String} (h : Component.Normal name.toList) :
    (⟨name⟩ : Path).fileName? = some name := by
  rw [fileName?, components_eq_named_iff.mpr h, List.getLast?_singleton]
  exact congrArg some String.ofList_toList

/-! ### A name behind a directory -/

/-- **A name behind a directory is one component more**, however the directory is written. -/
theorem components_join (dir : Path) {name : String} (h : Component.Normal name.toList) :
    (dir.join name).components = dir.components ++ [.named name.toList] := by
  have htext : (dir.join name).text.toList = joinWith '/' dir.text.toList name.toList :=
    String.toList_ofList
  by_cases hempty : dir.text.toList = []
  · rw [hempty, joinWith_of_complete (Or.inl rfl), List.nil_append] at htext
    rw [components_of_nil hempty, List.nil_append, ← htext, components_eq_named_iff, htext]
    exact h
  obtain ⟨first, rest, idle, hjoin, hdir, hidle⟩ := splitOn_joinWith hempty h.slash_notMem
  rw [← htext] at hjoin
  have hnone : idle.filterMap Component.ofSegment? = [] := by
    rcases hidle with rfl | rfl <;> rfl
  rw [components_eq hjoin fun hnil => by simp at hnil,
    components_eq hdir (segments_ne_of_ne_nil hempty hdir), List.filterMap_append,
    List.filterMap_append, hnone, List.append_nil, List.filterMap_cons, h.ofSegment?_eq,
    List.append_assoc]
  rfl

end SchemaEnums.Path
