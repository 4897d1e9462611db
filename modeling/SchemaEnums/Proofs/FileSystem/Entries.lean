import SchemaEnums.FileSystem.Basic

/-!
# Changing entries

How `put`, `erase` and `update` show in a look-up, and which changes cancel out.  All of it is about
the entries of one directory and of the directories below it.

* `Entries.at?`: the entries of the directory at a location; `FileSystem.entriesAt?` and
  `FileSystem.entryAt?` are read off it.
* `Entries.erase_put_of_fresh`: **a fresh name that is put and erased leaves no trace.**
* `Entries.update_update`, `Entries.update_eq_self`: changes at one location compose, and a change
  that keeps the entries there keeps everything.
-/

namespace SchemaEnums

/-! ### Names -/

theorem Name.not_special (name : Name) :
    ¬ (name.val = [] ∨ name.val = [46]) ∧ name.val ≠ [46, 46] := by
  have h := name.property.1
  simp only [List.mem_cons, List.not_mem_nil, or_false, not_or] at h
  exact ⟨not_or.mpr ⟨h.1, h.2.1⟩, h.2.2⟩

theorem Name.ofBytes?_eq_some_iff {bytes : List UInt8} {name : Name} :
    Name.ofBytes? bytes = some name ↔ bytes = name.val := by
  unfold Name.ofBytes?
  constructor
  · intro h
    split at h
    · cases h
      rfl
    · cases h
  · rintro rfl
    simp [name.property]

namespace Entries

variable {entries inner : Entries} {name other : Name} {entry : Entry}

/-! ### One directory -/

theorem lookup_put_self (name : Name) (entry : Entry) (entries : Entries) :
    (put name entry entries).lookup name = some entry := by
  induction entries with
  | nil => simp [put]
  | cons head rest ih =>
    obtain ⟨n, e⟩ := head
    unfold put
    split
    · simp
    · rename_i hne
      split
      · simp
      · rw [List.lookup_cons, beq_eq_false_iff_ne.mpr (Ne.symm hne)]
        exact ih

theorem lookup_put_of_ne (h : other ≠ name) (entry : Entry) (entries : Entries) :
    (put name entry entries).lookup other = entries.lookup other := by
  have hbeq : (other == name) = false := beq_eq_false_iff_ne.mpr h
  induction entries with
  | nil => simp [put, List.lookup_cons, hbeq]
  | cons head rest ih =>
    obtain ⟨n, e⟩ := head
    unfold put
    split
    · rename_i heq
      subst heq
      simp [List.lookup_cons, hbeq]
    · split
      · simp [List.lookup_cons, hbeq]
      · simp only [List.lookup_cons, ih]

theorem length_le_length_put (name : Name) (entry : Entry) (entries : Entries) :
    entries.length ≤ (put name entry entries).length := by
  induction entries with
  | nil => exact Nat.zero_le _
  | cons head rest ih =>
    rw [put]
    split
    · exact Nat.le_refl _
    · split
      · exact Nat.le_succ _
      · exact Nat.succ_le_succ ih

theorem put_put (name : Name) (first second : Entry) (entries : Entries) :
    put name second (put name first entries) = put name second entries := by
  induction entries with
  | nil => simp [put]
  | cons head rest ih =>
    obtain ⟨n, e⟩ := head
    by_cases heq : n = name
    · simp [put, heq]
    · by_cases hlt : name.val < n.val
      · simp [put, heq, hlt]
      · simp [put, heq, hlt, ih]

theorem erase_put (name : Name) (entry : Entry) (entries : Entries) :
    erase name (put name entry entries) = erase name entries := by
  induction entries with
  | nil => simp [put, erase]
  | cons head rest ih =>
    obtain ⟨n, e⟩ := head
    simp only [erase] at ih ⊢
    unfold put
    split
    · rename_i heq
      simp only [heq, ne_eq, not_true_eq_false, decide_false, Bool.false_eq_true, not_false_eq_true,
        List.filter_cons_of_neg]
    · rename_i hne
      split
      · simp only [ne_eq, not_true_eq_false, decide_false, Bool.false_eq_true, not_false_eq_true,
          List.filter_cons_of_neg]
      · rw [List.filter_cons, List.filter_cons, ih]

theorem erase_of_fresh (h : entries.lookup name = none) : erase name entries = entries := by
  apply List.filter_eq_self.mpr
  intro e he
  have hne := bne_iff_ne.mp (List.lookup_eq_none_iff.mp h e he)
  exact decide_eq_true hne.symm

/-- **A fresh name that is put and erased leaves no trace.** -/
theorem erase_put_of_fresh (h : entries.lookup name = none) (entry : Entry) :
    erase name (put name entry entries) = entries := by
  rw [erase_put, erase_of_fresh h]

theorem Ordered.lookup_of_mem (h : Ordered entries) (hmem : (name, entry) ∈ entries) :
    entries.lookup name = some entry := by
  induction entries with
  | nil => simp at hmem
  | cons head rest ih =>
    obtain ⟨n, e⟩ := head
    rcases List.mem_cons.mp hmem with heq | htail
    · cases heq
      simp
    · have hne : name ≠ n := by
        rintro rfl
        exact List.lt_irrefl _ (h.2.1 (name, entry) htail)
      rw [List.lookup_cons, beq_eq_false_iff_ne.mpr hne]
      exact ih h.2.2 htail

theorem mem_of_lookup (h : entries.lookup name = some entry) : (name, entry) ∈ entries := by
  obtain ⟨before, behind, rfl, -⟩ := List.lookup_eq_some_iff.mp h
  simp

theorem mem_map_fst_iff :
    name ∈ entries.map Prod.fst ↔ ∃ entry, entries.lookup name = some entry := by
  constructor
  · intro hmem
    obtain ⟨⟨found, entry⟩, hfound, rfl⟩ := List.mem_map.mp hmem
    cases hlookup : entries.lookup found with
    | some entry => exact ⟨entry, rfl⟩
    | none =>
      have hne := List.lookup_eq_none_iff.mp hlookup _ hfound
      simp at hne
  · rintro ⟨entry, hlookup⟩
    exact List.mem_map.mpr ⟨(name, entry), mem_of_lookup hlookup, rfl⟩

theorem mem_map_fst_put_iff (entry : Entry) :
    other ∈ (put name entry entries).map Prod.fst ↔
      other ∈ entries.map Prod.fst ∨ other = name := by
  rw [mem_map_fst_iff, mem_map_fst_iff]
  by_cases heq : other = name
  · subst heq
    exact iff_of_true ⟨entry, lookup_put_self other entry entries⟩ (Or.inr rfl)
  · rw [lookup_put_of_ne heq, or_iff_left heq]

theorem lookup_map {f : Name × Entry → Name × Entry} (hname : ∀ e, (f e).1 = e.1)
    (entries : Entries) (name : Name) :
    (entries.map f).lookup name = (entries.lookup name).map fun entry => (f (name, entry)).2 := by
  induction entries with
  | nil => rfl
  | cons head rest ih =>
    obtain ⟨n, e⟩ := head
    have hhead : f (n, e) = (n, (f (n, e)).2) := Prod.ext (hname (n, e)) rfl
    rw [List.map_cons, hhead, List.lookup_cons, List.lookup_cons]
    by_cases heq : name = n
    · subst heq
      simp
    · rw [beq_eq_false_iff_ne.mpr heq]
      exact ih

/-! ### The directories below -/

/-- The entries of the directory at a location. -/
def at? (entries : Entries) : Location → Option Entries
  | [] => some entries
  | name :: rest =>
    match entries.lookup name with
    | some (.directory inner) => at? inner rest
    | _ => none

@[simp] theorem at?_nil (entries : Entries) : at? entries [] = some entries := rfl

theorem at?_cons_eq_some {rest : Location} (h : at? entries (name :: rest) = some inner) :
    ∃ below, entries.lookup name = some (.directory below) ∧ at? below rest = some inner := by
  unfold at? at h
  split at h
  · exact ⟨_, by assumption, h⟩
  · simp at h

theorem at?_cons_of_lookup {below : Entries} (h : entries.lookup name = some (.directory below))
    (rest : Location) : at? entries (name :: rest) = at? below rest := by
  simp [at?, h]

theorem below?_append_singleton (entries : Entries) (location : Location) (name : Name) :
    (Entry.directory entries).below? (location ++ [name]) =
      (at? entries location).bind (·.lookup name) := by
  induction location generalizing entries with
  | nil =>
    simp only [List.nil_append, Entry.below?, at?_nil, Option.bind_some]
    cases entries.lookup name <;> rfl
  | cons first rest ih =>
    rw [List.cons_append, Entry.below?, at?]
    split
    · rename_i inner hinner
      rw [hinner]
      cases inner with
      | directory below => exact ih below
      | _ => cases rest <;> simp [Entry.below?]
    · rename_i hnone
      simp [hnone]

/-- What `update` does to one entry of a directory on its way. -/
theorem lookup_update_cons (change : Entries → Entries) (first : Name) (rest : Location)
    (entries : Entries) (name : Name) :
    (update change (first :: rest) entries).lookup name =
      (entries.lookup name).map fun entry =>
        match entry with
        | .directory inner =>
          if name = first then .directory (update change rest inner) else .directory inner
        | _ => entry := by
  rw [update, lookup_map]
  · congr 1
    funext entry
    by_cases heq : name = first <;> cases entry <;> simp [heq]
  · intro e
    split
    · split <;> rfl
    · rfl

theorem at?_update_self {change : Entries → Entries} :
    ∀ {location : Location} {entries inner : Entries}, at? entries location = some inner →
      at? (update change location entries) location = some (change inner)
  | [], _, _, h => by
    cases h
    rfl
  | name :: rest, entries, inner, h => by
    obtain ⟨below, hlookup, hbelow⟩ := at?_cons_eq_some h
    have hlookup' : (update change (name :: rest) entries).lookup name =
        some (.directory (update change rest below)) := by
      simp [lookup_update_cons, hlookup]
    rw [at?_cons_of_lookup hlookup', at?_update_self hbelow]

theorem update_update (f g : Entries → Entries) :
    ∀ (location : Location) (entries : Entries),
      update f location (update g location entries) =
        update (fun inner => f (g inner)) location entries
  | [], _ => rfl
  | name :: rest, entries => by
    simp only [update, List.map_map]
    apply List.map_congr_left
    intro e _
    obtain ⟨n, entry⟩ := e
    by_cases heq : n = name
    · cases entry with
      | directory inner => simp [heq, update_update f g rest inner]
      | _ => simp [heq]
    · simp [heq]

/-- A change that keeps the entries of the directory at a location keeps everything. -/
theorem update_eq_self {change : Entries → Entries} :
    ∀ (location : Location) {entries inner : Entries}, Ordered entries →
      at? entries location = some inner → change inner = inner →
      update change location entries = entries
  | [], entries, inner, _, hat, hchange => by
    cases hat
    exact hchange
  | name :: rest, entries, inner, hordered, hat, hchange => by
    obtain ⟨below, hlookup, hbelow⟩ := at?_cons_eq_some hat
    rw [update]
    refine (List.map_congr_left ?_).trans (List.map_id' entries)
    rintro ⟨n, entry⟩ he
    split
    · rename_i heq
      cases heq
      rw [hordered.lookup_of_mem he] at hlookup
      cases hlookup
      simp only
      rw [update_eq_self rest (hordered.all_ordered _ he) hbelow hchange]
    · rfl

end Entries

theorem Entry.Ordered.below? {entry found : Entry} {location : Location}
    (h : entry.Ordered) (hfound : entry.below? location = some found) : found.Ordered := by
  induction location generalizing entry with
  | nil =>
    cases hfound
    exact h
  | cons name rest ih =>
    unfold Entry.below? at hfound
    split at hfound
    · split at hfound
      · rename_i entries _ inner hinner
        exact ih (Entries.Ordered.all_ordered h _ (Entries.mem_of_lookup hinner)) hfound
      · cases hfound
    · cases hfound

end SchemaEnums
