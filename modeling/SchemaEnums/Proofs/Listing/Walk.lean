import SchemaEnums.Listing
import SchemaEnums.Proofs.FileSystem.Entries
import SchemaEnums.Proofs.Listing.Places

/-!
# Which entries the walk visits

The walk goes into real directories that can be listed, and into nothing else.  That is said without
the walk (`Visited`), and the walk is taken apart into the list of its visits and what each one
shows.

* `Listing.Listable`: a directory that the system does not refuse to list.
* `Listing.Visited`: an entry stands at a place, and the walk gets there.
* `Listing.visits`: the visits of the walk, in its order.
* `mem_visits_iff`: **the walk visits what can be visited, and nothing else.**
* `ascending_visits`: **it goes through the places in their order.**
* `ofEntries_eq`: what the walk shows is what its visits show.
-/

namespace SchemaEnums.Listing

/-- Whether an entry at a path is a directory that the system lists. -/
def Listable (path : List UInt8) (entry : Entry) : Prop :=
  entry.isDirectory ∧ refusal? path entry = none

/-- At a place below the directory at a path stands an entry, and all directories on the way, the
one at the path among them, are real ones that can be listed. -/
inductive Visited : List UInt8 → Entries → Location → Entry → Prop
  | here {dir : List UInt8} {entries : Entries} {name : Name} {entry : Entry}
      (hlist : Listable dir (.directory entries)) (hentry : entries.lookup name = some entry) :
      Visited dir entries [name] entry
  | inside {dir : List UInt8} {entries inner : Entries} {name : Name} {rest : Location}
      {entry : Entry} (hlist : Listable dir (.directory entries))
      (hinner : entries.lookup name = some (.directory inner))
      (hrest : Visited (joinWith 47 dir name.val) inner rest entry) :
      Visited dir entries (name :: rest) entry

mutual

/-- The visits below the entry at a path. -/
def visitsBelow (path : List UInt8) : Entry → List (Location × Entry)
  | .directory entries =>
    match refusal? path (.directory entries) with
    | some _ => []
    | none => visits path entries
  | _ => []

/-- The visits to entries of the directory at a path and to what is below them. -/
def visits (dir : List UInt8) : List (Name × Entry) → List (Location × Entry)
  | [] => []
  | (name, entry) :: rest =>
    below name (([], entry) :: visitsBelow (joinWith 47 dir name.val) entry) ++ visits dir rest

end

/-- What a visit shows by itself. -/
def sighting? (path : List UInt8) (entry : Entry) : Option Sighting :=
  match refusal? path entry with
  | some error => some (refused path error)
  | none => if entry.isDirectory then none else (ofLeaf path).head?

variable {dir path : List UInt8} {entries : Entries} {place : Location} {entry : Entry}

/-! ### Directories that are listed -/

theorem refusal?_of_leaf (h : ¬ entry.isDirectory) (path : List UInt8) :
    refusal? path entry = none := by
  cases entry with
  | directory inner => exact absurd rfl h
  | closedDirectory refusal => exact absurd rfl h
  | _ => rfl

theorem listable_iff :
    Listable path entry ↔
      (∃ inner, entry = .directory inner) ∧ path.length ≤ maxPathLength := by
  cases entry with
  | directory inner => simp [Listable, Entry.isDirectory, refusal?]
  | closedDirectory refusal => simp [Listable, refusal?]
  | _ => simp [Listable, Entry.isDirectory]

theorem listable_directory (h : path.length ≤ maxPathLength) (entries : Entries) :
    Listable path (.directory entries) :=
  listable_iff.mpr ⟨⟨entries, rfl⟩, h⟩

/-! ### What the walk shows -/

theorem ofEntry_of_leaf (h : ¬ entry.isDirectory) : ofEntry path entry = ofLeaf path := by
  cases entry with
  | directory inner => exact absurd rfl h
  | closedDirectory refusal => exact absurd rfl h
  | _ => simp [ofEntry, refusal?]

theorem toList_head?_ofLeaf (path : List UInt8) : (ofLeaf path).head?.toList = ofLeaf path := by
  unfold ofLeaf
  split
  · split <;> rfl
  · dsimp only
    split <;> rfl

mutual

theorem ofEntry_eq (path : List UInt8) (entry : Entry) :
    ofEntry path entry =
      (([], entry) :: visitsBelow path entry).filterMap fun visit =>
        sighting? (Location.pathTo path visit.1) visit.2 := by
  cases entry with
  | directory entries =>
    rw [ofEntry, visitsBelow, List.filterMap_cons, Location.pathTo_nil, sighting?]
    cases refusal? path (.directory entries) with
    | some error => rfl
    | none => exact ofEntries_eq path entries
  | closedDirectory refusal => rfl
  | _ =>
    simp only [Entry.isDirectory, Bool.false_eq_true, not_false_eq_true, ofEntry_of_leaf]
    rw [← toList_head?_ofLeaf]
    cases h : (ofLeaf path).head? <;> simp [visitsBelow, sighting?, refusal?, Entry.isDirectory, h]

theorem ofEntries_eq (dir : List UInt8) (entries : List (Name × Entry)) :
    ofEntries dir entries =
      (visits dir entries).filterMap fun visit =>
        sighting? (Location.pathTo dir visit.1) visit.2 := by
  cases entries with
  | nil => rfl
  | cons head rest =>
    obtain ⟨name, entry⟩ := head
    rw [ofEntries, visits, List.filterMap_append, ofEntries_eq dir rest,
      ofEntry_eq (joinWith 47 dir name.val) entry, below, List.filterMap_map]
    rfl

end

/-! ### Where the walk goes -/

theorem visits_eq_flatMap (dir : List UInt8) (entries : Entries) :
    visits dir entries = entries.flatMap fun e =>
      below e.1 (([], e.2) :: visitsBelow (joinWith 47 dir e.1.val) e.2) := by
  induction entries with
  | nil => rfl
  | cons head rest ih =>
    obtain ⟨name, entry⟩ := head
    rw [visits, ih]
    rfl

theorem mem_visitsBelow_iff {found : Entry} :
    (place, found) ∈ visitsBelow path entry ↔
      ∃ inner, entry = .directory inner ∧ Listable path (.directory inner) ∧
        (place, found) ∈ visits path inner := by
  cases entry with
  | directory inner =>
    rw [visitsBelow]
    cases hrefusal : refusal? path (.directory inner) <;>
      simp [Listable, Entry.isDirectory, hrefusal]
  | _ => simp [visitsBelow]

theorem mem_visits_cons_iff (hordered : Entries.Ordered entries) {name : Name} {rest : Location} :
    (name :: rest, entry) ∈ visits dir entries ↔
      ∃ e, entries.lookup name = some e ∧
        ((rest, entry) = ([], e) ∨ (rest, entry) ∈ visitsBelow (joinWith 47 dir name.val) e) := by
  rw [visits_eq_flatMap, List.mem_flatMap]
  constructor
  · rintro ⟨⟨n, e⟩, hmem, hbelow⟩
    obtain ⟨_, heq, hvisit⟩ := mem_below.mp hbelow
    cases heq
    exact ⟨e, hordered.lookup_of_mem hmem, List.mem_cons.mp hvisit⟩
  · rintro ⟨e, hlookup, hvisit⟩
    exact ⟨(name, e), Entries.mem_of_lookup hlookup,
      mem_below.mpr ⟨rest, rfl, List.mem_cons.mpr hvisit⟩⟩

theorem exists_cons_of_mem_visits {visit : Location × Entry} (h : visit ∈ visits dir entries) :
    ∃ e ∈ entries, ∃ rest, visit.1 = e.1 :: rest := by
  rw [visits_eq_flatMap] at h
  obtain ⟨e, hmem, hbelow⟩ := List.mem_flatMap.mp h
  obtain ⟨rest, heq, -⟩ := mem_below.mp hbelow
  exact ⟨e, hmem, rest, heq⟩

theorem ne_nil_of_mem_visitsBelow {visit : Location × Entry}
    (h : visit ∈ visitsBelow path entry) : visit.1 ≠ [] := by
  obtain ⟨inner, -, -, hvisit⟩ := mem_visitsBelow_iff.mp h
  obtain ⟨_, -, rest, heq⟩ := exists_cons_of_mem_visits hvisit
  rw [heq]
  exact List.cons_ne_nil _ _

theorem Visited.listable (h : Visited dir entries place entry) :
    Listable dir (.directory entries) := by
  cases h with
  | here hlist _ => exact hlist
  | inside hlist _ _ => exact hlist

theorem Visited.ne_nil (h : Visited dir entries place entry) : place ≠ [] := by
  cases h <;> exact List.cons_ne_nil _ _

theorem Visited.unique {other : Entry} (h : Visited dir entries place entry)
    (hother : Visited dir entries place other) : entry = other := by
  induction h with
  | here _ hentry =>
    cases hother with
    | here _ hother => exact Option.some.inj (hentry.symm.trans hother)
    | inside _ _ hrest => exact absurd rfl hrest.ne_nil
  | inside _ hinner hrest ih =>
    cases hother with
    | here _ _ => exact absurd rfl hrest.ne_nil
    | inside _ hinner' hrest' =>
      cases hinner.symm.trans hinner'
      exact ih hrest'

theorem Visited.listable_of_append {front behind : Location} {between : Entry}
    (hfront : Visited dir entries front between) (hbehind : behind ≠ [])
    (h : Visited dir entries (front ++ behind) entry) :
    Listable (Location.pathTo dir front) between := by
  induction hfront with
  | here _ hbetween =>
    cases h with
    | here _ _ => exact absurd rfl hbehind
    | inside _ hinner hrest =>
      cases hbetween.symm.trans hinner
      exact hrest.listable
  | @inside _ _ _ _ rest _ _ hinner hrest ih =>
    rw [List.cons_append] at h
    generalize hplace : rest ++ behind = place at h
    cases h with
    | here _ _ => exact absurd (List.append_eq_nil_iff.mp hplace).2 hbehind
    | inside _ hinner' hrest' =>
      cases hplace
      cases hinner.symm.trans hinner'
      exact ih hrest'

/-- **The walk visits what can be visited, and nothing else.** -/
theorem mem_visits_iff (hordered : Entries.Ordered entries)
    (hlist : Listable dir (.directory entries)) :
    (place, entry) ∈ visits dir entries ↔ Visited dir entries place entry := by
  -- by the names of the place: each of them picks one entry, so the tree needs no induction
  induction place generalizing dir entries with
  | nil =>
    constructor
    · intro h
      obtain ⟨_, -, _, hcons⟩ := exists_cons_of_mem_visits h
      cases hcons
    · intro h
      exact absurd rfl h.ne_nil
  | cons name rest ih =>
    rw [mem_visits_cons_iff hordered]
    constructor
    · rintro ⟨e, hlookup, hhere | hbelow⟩
      · cases hhere
        exact .here hlist hlookup
      · obtain ⟨inner, rfl, hinner, hvisit⟩ := mem_visitsBelow_iff.mp hbelow
        have hsub := hordered.all_ordered _ (Entries.mem_of_lookup hlookup)
        exact .inside hlist hlookup ((ih hsub hinner).mp hvisit)
    · intro h
      cases h with
      | here _ hentry => exact ⟨entry, hentry, Or.inl rfl⟩
      | @inside _ _ inner _ _ _ _ hinner hrest =>
        have hsub := hordered.all_ordered _ (Entries.mem_of_lookup hinner)
        exact ⟨_, hinner, Or.inr (mem_visitsBelow_iff.mpr
          ⟨inner, rfl, hrest.listable, (ih hsub hrest.listable).mpr hrest⟩)⟩

/-! ### The order of the visits -/

mutual

theorem ascending_visitsBelow (path : List UInt8) {entry : Entry} (h : entry.Ordered) :
    Ascending (fun name other : Name => name.val < other.val) (visitsBelow path entry) := by
  cases entry with
  | directory entries =>
    rw [visitsBelow]
    split
    · exact List.Pairwise.nil
    · exact ascending_visits path h
  | _ => exact List.Pairwise.nil

/-- **The walk goes through the places in their order.** -/
theorem ascending_visits (dir : List UInt8) {entries : List (Name × Entry)}
    (h : Entries.Ordered entries) :
    Ascending (fun name other : Name => name.val < other.val) (visits dir entries) := by
  cases entries with
  | nil => exact List.Pairwise.nil
  | cons head rest =>
    obtain ⟨name, entry⟩ := head
    rw [visits]
    refine .below_append ?_ (ascending_visits dir h.2.2) fun visit hvisit => ?_
    · exact (ascending_visitsBelow _ h.1).cons_node
        (fun _ hvisit => ne_nil_of_mem_visitsBelow hvisit) entry
    · obtain ⟨e, hmem, place, hplace⟩ := exists_cons_of_mem_visits hvisit
      exact ⟨e.1, place, hplace, h.2.1 e hmem⟩

end

end SchemaEnums.Listing
