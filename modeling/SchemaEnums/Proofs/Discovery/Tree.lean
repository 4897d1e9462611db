import SchemaEnums.Proofs.Discovery.Policies
import SchemaEnums.Proofs.FileSystem.Following
import SchemaEnums.Proofs.Listing.Walk

/-!
# What a scan finds

A scan that keeps going finds the schema files of the tree below its root and the directories that
it had to leave out, both once and in the order of their places.

* `SchemaFileAt`, `UnlistedAt`: what stands at a place, said without the scan.
* `Discovery.scan_keepGoing_tree`: **the scan finds exactly that**, for every root.
-/

namespace SchemaEnums

open Listing

/-- A schema file can be reached at a place below the directory at a path: an entry that is no
directory, whose name ends like that of a schema file and whose path is text. -/
def SchemaFileAt (dir : List UInt8) (entries : Entries) (place : Location) (path : Path) : Prop :=
  path.bytes = Location.pathTo dir place ∧
    ∃ entry name, Visited dir entries place entry ∧ ¬ entry.isDirectory ∧
      place.getLast? = some name ∧ schemaBytes <:+ name.val

/-- A directory can be reached at a place below the directory at a path, but the system refuses to
list it, as it is closed or its path is too long; the failure shows the path and the refusal. -/
def UnlistedAt (dir : List UInt8) (entries : Entries) (place : Location) (error : ListingError) :
    Prop :=
  ∃ directory refusal, Visited dir entries place directory ∧
    refusal? (Location.pathTo dir place) directory = some refusal ∧
    error = ⟨⟨Lossy.decode (Location.pathTo dir place)⟩, .refused refusal⟩

variable {fs : FileSystem} {dir path : List UInt8} {entries : Entries} {place other : Location}
  {entry : Entry} {root found : Path} {error : ListingError}

/-! ### What a visit finds -/

theorem head?_ofLeaf_file?_iff :
    (ofLeaf path).head?.bind Sighting.file? = some found ↔
      found.bytes = path ∧ Path.endsLikeSchema found.text.toList := by
  rw [← Path.ofBytes?_eq_some_iff, ofLeaf]
  cases hpath : Path.ofBytes? path with
  | none =>
    dsimp only
    split <;> simp [Sighting.file?]
  | some p =>
    dsimp only
    by_cases hends : Path.endsLikeSchema p.text.toList
    · rw [if_pos hends, List.head?_cons, Option.bind_some, Sighting.file?]
      constructor
      · intro heq
        cases heq
        exact ⟨rfl, hends⟩
      · intro h
        exact h.1
    · rw [if_neg hends, List.head?_nil, Option.bind_none]
      constructor
      · intro heq
        cases heq
      · intro h
        cases h.1
        exact absurd h.2 hends

theorem head?_ofLeaf_error? : (ofLeaf path).head?.bind Sighting.error? = none := by
  unfold ofLeaf
  split
  · split <;> rfl
  · dsimp only
    split <;> rfl

theorem sighting?_file?_iff :
    (sighting? path entry).bind Sighting.file? = some found ↔
      ¬ entry.isDirectory ∧ found.bytes = path ∧ Path.endsLikeSchema found.text.toList := by
  rw [sighting?]
  by_cases hdirectory : entry.isDirectory
  · cases refusal? path entry <;> simp [hdirectory, refused, Sighting.file?]
  · simp [refusal?_of_leaf hdirectory, hdirectory, head?_ofLeaf_file?_iff]

theorem sighting?_error?_iff :
    (sighting? path entry).bind Sighting.error? = some error ↔
      ∃ refusal, refusal? path entry = some refusal ∧
        error = ⟨⟨Lossy.decode path⟩, .refused refusal⟩ := by
  rw [sighting?]
  cases refusal? path entry with
  | some refusal => simp [refused, Sighting.error?, eq_comm]
  | none =>
    by_cases hdirectory : entry.isDirectory <;> simp [hdirectory, head?_ofLeaf_error?]

/-! ### What the walk finds -/

theorem Listing.enumerates_ofEntries {γ : Type} (hordered : Entries.Ordered entries)
    (hlist : Listable dir (.directory entries)) (pick : Sighting → Option γ) :
    Enumerates Location.Before
      (fun place item => ∃ entry, Visited dir entries place entry ∧
        (sighting? (Location.pathTo dir place) entry).bind pick = some item)
      ((ofEntries dir entries).filterMap pick) := by
  rw [ofEntries_eq, List.filterMap_filterMap]
  refine (Enumerates.filterMap (ascending_visits dir hordered)
    fun place entry => (sighting? (Location.pathTo dir place) entry).bind pick).congr ?_
  intro place item
  simp only [mem_visits_iff hordered hlist]

theorem Listing.enumerates_files (hordered : Entries.Ordered entries)
    (hlist : Listable dir (.directory entries)) (hdir : dir ≠ []) :
    Enumerates Location.Before (SchemaFileAt dir entries)
      ((ofEntries dir entries).filterMap Sighting.file?) := by
  refine (enumerates_ofEntries hordered hlist Sighting.file?).congr ?_
  intro place found
  simp only [sighting?_file?_iff, SchemaFileAt]
  constructor
  · rintro ⟨entry, hvisit, hleaf, hbytes, hends⟩
    obtain ⟨init, name, rfl⟩ := (List.eq_nil_or_concat' place).resolve_left hvisit.ne_nil
    have hlast : (init ++ [name]).getLast? = some name := List.getLast?_concat
    exact ⟨hbytes, entry, name, hvisit, hleaf, hlast,
      (Path.endsLikeSchema_iff hdir hlast hbytes).mp hends⟩
  · rintro ⟨hbytes, entry, name, hvisit, hleaf, hlast, hends⟩
    exact ⟨entry, hvisit, hleaf, hbytes, (Path.endsLikeSchema_iff hdir hlast hbytes).mpr hends⟩

theorem Listing.enumerates_unlisted (hordered : Entries.Ordered entries)
    (hlist : Listable dir (.directory entries)) :
    Enumerates Location.Before (UnlistedAt dir entries)
      ((ofEntries dir entries).filterMap Sighting.error?) := by
  refine (enumerates_ofEntries hordered hlist Sighting.error?).congr ?_
  intro place found
  simp only [sighting?_error?_iff, UnlistedAt]
  constructor
  · rintro ⟨directory, hvisit, refusal, hrefusal, herror⟩
    exact ⟨directory, refusal, hvisit, hrefusal, herror⟩
  · rintro ⟨directory, refusal, hvisit, hrefusal, herror⟩
    exact ⟨directory, hvisit, refusal, hrefusal, herror⟩

theorem SchemaFileAt.ne_nil (h : SchemaFileAt dir entries place found) : place ≠ [] := by
  obtain ⟨-, entry, name, hvisit, -⟩ := h
  exact hvisit.ne_nil

theorem SchemaFileAt.place_eq (hdir : dir ≠ []) (h : SchemaFileAt dir entries place found)
    (hother : SchemaFileAt dir entries other found) : place = other :=
  Location.pathTo_injective hdir h.ne_nil hother.ne_nil (h.1.symm.trans hother.1)

theorem UnlistedAt.not_below (hdir : dir ≠ []) (h : UnlistedAt dir entries place error)
    (rest : Location) (hfile : SchemaFileAt dir entries other found) :
    found.bytes ≠ Location.pathTo dir (place ++ rest) := by
  intro hbytes
  obtain ⟨directory, refusal, hdirectory, hrefusal, -⟩ := h
  have hplace : other = place ++ rest := by
    refine Location.pathTo_injective hdir hfile.ne_nil ?_ (hfile.1.symm.trans hbytes)
    exact List.append_ne_nil_of_left_ne_nil hdirectory.ne_nil rest
  obtain ⟨-, entry, name, hvisit, hleaf, -⟩ := hfile
  rw [hplace] at hvisit
  by_cases hrest : rest = []
  · rw [hrest, List.append_nil] at hvisit
    cases hvisit.unique hdirectory
    cases (refusal?_of_leaf hleaf _).symm.trans hrefusal
  · cases (hdirectory.listable_of_append hrest hvisit).2.symm.trans hrefusal

/-! ### What a scan finds -/

theorem Listing.ofRoot_of_directory (h : fs.stat root = .ok (.directory entries)) :
    ofRoot fs root = ofEntries root.bytes entries := by
  rw [ofRoot, h]

theorem Listing.ofRoot_of_closed {refusal : OsError}
    (h : fs.stat root = .ok (.closedDirectory refusal)) :
    ofRoot fs root = [.unlisted ⟨root, .refused refusal⟩] := by
  rw [ofRoot, h]

theorem Listing.ofRoot_of_leaf (h : fs.stat root = .ok entry) (hleaf : ¬ entry.isDirectory) :
    ofRoot fs root = [.unlisted ⟨root, .notADirectory⟩] := by
  rw [ofRoot, h]
  cases entry with
  | directory inner => exact absurd rfl hleaf
  | closedDirectory refusal => exact absurd rfl hleaf
  | _ => rfl

theorem Listing.ofRoot_of_error {os : OsError} (h : fs.stat root = .error os) :
    ofRoot fs root = [.unlisted ⟨root, .noMetadata os⟩] := by
  rw [ofRoot, h]

/-- **What a scan finds.**  Below a root that leads to a directory it finds the schema files, each
once and in the order of their places, and the directories that the system refuses to list, likewise;
it finds nothing below these.  Any other root, a closed directory among them, gives no file and a
single failure. -/
theorem Discovery.scan_keepGoing_tree (fs : FileSystem) (root : Path) :
    let found := scan fs root .keepGoing
    match fs.stat root with
    | .ok (.directory entries) =>
      Enumerates Location.Before (SchemaFileAt root.bytes entries) found.files ∧
        found.files.Nodup ∧
        Enumerates Location.Before (UnlistedAt root.bytes entries) found.errors ∧
        ∀ place error, UnlistedAt root.bytes entries place error →
          ∀ rest, ∀ path ∈ found.files, path.bytes ≠ Location.pathTo root.bytes (place ++ rest)
    | .ok (.closedDirectory refusal) =>
      found.files = [] ∧ found.errors = [⟨root, .refused refusal⟩]
    | .ok _ => found.files = [] ∧ found.errors = [⟨root, .notADirectory⟩]
    | .error error => found.files = [] ∧ found.errors = [⟨root, .noMetadata error⟩] := by
  intro found
  have hfound : found = _ := scan_keepGoing fs root
  split
  · rename_i entries hstat
    have hrefusal := FileSystem.refusal?_of_stat hstat
    have hdir := Path.bytes_ne_nil_of_refusal? hrefusal
    have hlist := listable_directory (Path.length_le_of_refusal? hrefusal) entries
    have hordered := FileSystem.ordered_of_stat hstat
    rw [Listing.ofRoot_of_directory hstat] at hfound
    have hfiles := Listing.enumerates_files hordered hlist hdir
    have herrors := Listing.enumerates_unlisted hordered hlist
    rw [hfound]
    refine ⟨hfiles, ?_, herrors, ?_⟩
    · exact hfiles.nodup Location.not_before_self fun h hother => h.place_eq hdir hother
    · intro place error hunlisted rest path hpath
      obtain ⟨other, hfile⟩ := hfiles.mem_iff.mp hpath
      exact hunlisted.not_below hdir rest hfile
  · rename_i refusal hstat
    rw [hfound, Listing.ofRoot_of_closed hstat]
    exact ⟨rfl, rfl⟩
  · rename_i entry hopen hclosed hstat
    have hleaf : ¬ entry.isDirectory := by
      cases entry with
      | directory inner => exact absurd rfl (hopen inner)
      | closedDirectory refusal => exact absurd rfl (hclosed refusal)
      | _ => simp [Entry.isDirectory]
    rw [hfound, Listing.ofRoot_of_leaf hstat hleaf]
    exact ⟨rfl, rfl⟩
  · rename_i hstat
    rw [hfound, Listing.ofRoot_of_error hstat]
    exact ⟨rfl, rfl⟩

/-- A directory comes before the names that it is the front of, although `-` comes before `/`; and a
closed one is mentioned between the files. -/
example :
    let file := Entry.file ⟨#[]⟩
    let tree : Entries :=
      [(⟨[97], by decide⟩, .directory
          [(⟨[99], by decide⟩, .closedDirectory .accessDenied),
            (⟨[120, 46, 106, 115, 111, 110], by decide⟩, file)]),
        (⟨[97, 45, 98, 46, 106, 115, 111, 110], by decide⟩, file)]
    ofEntries [105, 110] tree =
      [.unlisted ⟨⟨"in/a/c"⟩, .refused .accessDenied⟩, .schema ⟨"in/a/x.json"⟩,
        .schema ⟨"in/a-b.json"⟩] := by
  decide

end SchemaEnums
