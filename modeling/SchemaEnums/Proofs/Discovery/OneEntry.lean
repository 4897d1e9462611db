import SchemaEnums.Proofs.Discovery.Tree
import SchemaEnums.Proofs.FileSystem.OneEntry

/-!
# Scans of file systems that differ in one entry

A scan sees real directories, and the other entries by their names only.  So an entry that is no
directory matters to a scan only if it is listed itself.

* `Listing.Visited.of_differsOnlyAt`: **what can be visited in one file system can be visited in the
  other.**
* `Discovery.scan_files_eq`: the files of a scan, under either policy.
* `Discovery.ListsPlace`: a scan lists the entry at a place.
* `Discovery.scan_files_of_differsOnlyAt`: **a scan lists the same files**, unless it lists the
  entry.
-/

namespace SchemaEnums

open Listing

variable {before after : FileSystem} {dir : List UInt8} {entries later : Entries}
  {place root below : Location} {entry : Entry} {path input : Path} {error : ListingError}

/-! ### What can be visited -/

/-- **What can be visited in one file system can be visited in the other**, if anything stands there
at all: only the directories on the way matter. -/
theorem Listing.Visited.of_differsOnlyAt (hdiffers : before.DiffersOnlyAt place after)
    (hvisit : Visited dir entries below entry)
    (hroot : before.entryAt? root = some (.directory entries))
    (hroot' : after.entryAt? root = some (.directory later)) {found : Entry}
    (hfound : after.entryAt? (root ++ below) = some found) : Visited dir later below found := by
  induction hvisit generalizing root later with
  | here hlist _ =>
    rw [FileSystem.entryAt?_of_directory hroot'] at hfound
    exact .here hlist hfound
  | @inside _ _ inner name rest _ hlist hinner _ ih =>
    have hstep : before.entryAt? (root ++ [name]) = some (.directory inner) := by
      rw [FileSystem.entryAt?_of_directory hroot, hinner]
    obtain ⟨inner', hinner'⟩ := hdiffers.exists_directory hstep
    have hlookup : later.lookup name = some (.directory inner') := by
      rw [FileSystem.entryAt?_of_directory hroot'] at hinner'
      exact hinner'
    rw [List.append_cons] at hfound
    exact .inside hlist hlookup (ih hstep hinner' hfound)

theorem Listing.Visited.entryAt? (hvisit : Visited dir entries below entry)
    (hroot : before.entryAt? root = some (.directory entries)) :
    before.entryAt? (root ++ below) = some entry := by
  induction hvisit generalizing root with
  | here _ hentry =>
    rw [FileSystem.entryAt?_of_directory hroot, hentry]
  | @inside _ _ inner name rest _ _ hinner _ ih =>
    have hstep : before.entryAt? (root ++ [name]) = some (.directory inner) := by
      rw [FileSystem.entryAt?_of_directory hroot, hinner]
    rw [List.append_cons]
    exact ih hstep

theorem SchemaFileAt.of_differsOnlyAt (hdiffers : before.DiffersOnlyAt place after)
    (hroot : before.entryAt? root = some (.directory entries))
    (hroot' : after.entryAt? root = some (.directory later)) (hne : root ++ below ≠ place)
    (hfile : SchemaFileAt dir entries below path) : SchemaFileAt dir later below path := by
  obtain ⟨hbytes, entry, name, hvisit, hleaf, hname⟩ := hfile
  obtain ⟨found, hfound, halike⟩ := hdiffers.exists_alike hne (hvisit.entryAt? hroot)
  exact ⟨hbytes, found, name, hvisit.of_differsOnlyAt hdiffers hroot hroot' hfound,
    by rwa [halike.isDirectory_eq], hname⟩

/-- A schema file at the place stays one, if anything stands there at all. -/
theorem SchemaFileAt.at_place (hdiffers : before.DiffersOnlyAt place after)
    (hroot : before.entryAt? root = some (.directory entries))
    (hroot' : after.entryAt? root = some (.directory later)) {found : Entry}
    (hfound : after.entryAt? place = some found) (hplace : root ++ below = place)
    (hfile : SchemaFileAt dir entries below path) : SchemaFileAt dir later below path := by
  obtain ⟨hbytes, entry, name, hvisit, -, hname⟩ := hfile
  have hleaf := hdiffers.no_directory_after found hfound
  rw [← hplace] at hfound
  exact ⟨hbytes, found, name, hvisit.of_differsOnlyAt hdiffers hroot hroot' hfound, hleaf, hname⟩

/-- What the system refuses to list is a directory, so it is not the entry at the place. -/
theorem FileSystem.DiffersOnlyAt.exists_refused (hdiffers : before.DiffersOnlyAt place after)
    {bytes : List UInt8} {refusal : OsError} (hrefusal : refusal? bytes entry = some refusal)
    (hentry : before.entryAt? below = some entry) :
    ∃ found, after.entryAt? below = some found ∧ refusal? bytes found = some refusal := by
  have hne : below ≠ place := by
    rintro rfl
    have hleaf := hdiffers.no_directory_before entry hentry
    cases (refusal?_of_leaf hleaf bytes).symm.trans hrefusal
  obtain ⟨found, hfound, halike⟩ := hdiffers.exists_alike hne hentry
  refine ⟨found, hfound, ?_⟩
  cases halike <;> exact hrefusal

theorem UnlistedAt.of_differsOnlyAt (hdiffers : before.DiffersOnlyAt place after)
    (hroot : before.entryAt? root = some (.directory entries))
    (hroot' : after.entryAt? root = some (.directory later))
    (hunlisted : UnlistedAt dir entries below error) : UnlistedAt dir later below error := by
  obtain ⟨directory, refusal, hvisit, hrefusal, herror⟩ := hunlisted
  obtain ⟨found, hfound, hsame⟩ := hdiffers.exists_refused hrefusal (hvisit.entryAt? hroot)
  exact ⟨found, refusal, hvisit.of_differsOnlyAt hdiffers hroot hroot' hfound, hsame, herror⟩

/-! ### What a scan lists -/

namespace Discovery

variable {fs : FileSystem} {policy : DiscoveryPolicy}

theorem scan_files_eq (fs : FileSystem) (input : Path) (policy : DiscoveryPolicy) :
    (scan fs input policy).files =
      if policy = .failOpen ∧ (scan fs input .keepGoing).errors ≠ [] then []
      else (scan fs input .keepGoing).files := by
  cases policy with
  | keepGoing => simp
  | failOpen =>
    obtain hlisted | ⟨front, error, behind, hsplit, hfront⟩ :=
      listed_or_first_unlisted (Listing.ofRoot fs input)
    · have hsame : scan fs input .failOpen = scan fs input .keepGoing := collect_of_listed hlisted
      have herrors : (scan fs input .keepGoing).errors = [] := by
        rw [scan_keepGoing]
        exact List.filterMap_eq_nil_iff.mpr hlisted
      rw [hsame, if_neg (by simp [herrors])]
    · have herrors : (scan fs input .keepGoing).errors ≠ [] := by
        rw [scan_keepGoing, hsplit]
        simp [Sighting.error?]
      rw [scan_failOpen_of_unlisted hsplit hfront, if_pos ⟨rfl, herrors⟩]

theorem mem_keepGoing_of_mem_scan (h : path ∈ (scan fs input policy).files) :
    path ∈ (scan fs input .keepGoing).files := by
  rw [scan_files_eq] at h
  split at h
  · cases h
  · exact h

/-- A scan lists the entry at a place: it is a schema file of the tree below the root, and its path
is one of the scan's files. -/
def ListsPlace (fs : FileSystem) (input : Path) (policy : DiscoveryPolicy) (place : Location) :
    Prop :=
  ∃ root entries below path, fs.resolve input = .ok root ∧
    fs.entryAt? root = some (.directory entries) ∧ SchemaFileAt input.bytes entries below path ∧
    root ++ below = place ∧ path ∈ (scan fs input policy).files

theorem not_listsPlace_of_name {location : Location} {name : Name}
    (h : ¬ schemaBytes <:+ name.val) :
    ¬ ListsPlace fs input policy (location ++ [name]) := by
  rintro ⟨root, entries, below, path, -, -, ⟨-, _, last, -, -, hlast, hends⟩, hplace, -⟩
  have hname : last = name := by
    have hgetLast := congrArg List.getLast? hplace
    rw [List.getLast?_append, hlast, Option.some_or, List.getLast?_concat] at hgetLast
    exact Option.some.inj hgetLast
  exact h (hname ▸ hends)

theorem exists_stat_of_mem_scan (h : path ∈ (scan fs input policy).files) :
    ∃ entries, fs.stat input = .ok (.directory entries) := by
  have hmem := mem_keepGoing_of_mem_scan h
  rw [scan_keepGoing] at hmem
  cases hstat : fs.stat input with
  | error error =>
    rw [Listing.ofRoot_of_error hstat] at hmem
    simp [Sighting.file?] at hmem
  | ok entry =>
    cases entry with
    | directory entries => exact ⟨entries, rfl⟩
    | closedDirectory refusal =>
      rw [Listing.ofRoot_of_closed hstat] at hmem
      simp [Sighting.file?] at hmem
    | _ =>
      rw [Listing.ofRoot_of_leaf hstat Bool.false_ne_true] at hmem
      simp [Sighting.file?] at hmem

theorem enumerates_scan (hstat : fs.stat input = .ok (.directory entries)) :
    Enumerates Location.Before (SchemaFileAt input.bytes entries)
        (scan fs input .keepGoing).files ∧
      Enumerates Location.Before (UnlistedAt input.bytes entries)
        (scan fs input .keepGoing).errors := by
  have hrefusal := FileSystem.refusal?_of_stat hstat
  have hdir := Path.bytes_ne_nil_of_refusal? hrefusal
  have hlist := listable_directory (Path.length_le_of_refusal? hrefusal) entries
  have hordered := FileSystem.ordered_of_stat hstat
  rw [scan_keepGoing, Listing.ofRoot_of_directory hstat]
  exact ⟨Listing.enumerates_files hordered hlist hdir, Listing.enumerates_unlisted hordered hlist⟩

/-- **A scan that lists anything lists the same files in both file systems**, if its root does not
pass the place and the entry there is not listed. -/
theorem scan_files_of_differsOnlyAt (hdiffers : before.DiffersOnlyAt place after)
    (hfound : after.entryAt? place = some entry)
    (hmem : path ∈ (scan before input policy).files) (hpasses : ¬ after.PathPasses input place)
    (hlists : ¬ ListsPlace after input policy place) :
    (scan after input policy).files = (scan before input policy).files := by
  obtain ⟨entries, hstat⟩ := exists_stat_of_mem_scan hmem
  obtain ⟨root, later, -, hresolve, hroot, hroot'⟩ :=
    FileSystem.stat_directory_of_differsOnlyAt hdiffers hstat hpasses
  have hstat' : after.stat input = .ok (.directory later) :=
    FileSystem.stat_eq_ok_iff.mpr ⟨root, hresolve, hroot'⟩
  obtain ⟨hfiles, herrors⟩ := enumerates_scan hstat
  obtain ⟨hfiles', herrors'⟩ := enumerates_scan hstat'
  -- the same directories cannot be listed
  have hunlisted : ∀ below error,
      UnlistedAt input.bytes later below error ↔ UnlistedAt input.bytes entries below error := by
    intro below error
    exact ⟨.of_differsOnlyAt hdiffers.symm hroot' hroot, .of_differsOnlyAt hdiffers hroot hroot'⟩
  have hsameErrors : (scan after input .keepGoing).errors = (scan before input .keepGoing).errors :=
    (herrors'.congr hunlisted).unique Location.not_before_of_before herrors
  rw [scan_files_eq after input policy, scan_files_eq before input policy, hsameErrors]
  by_cases hnothing : policy = .failOpen ∧ (scan before input .keepGoing).errors ≠ []
  · rw [if_pos hnothing, if_pos hnothing]
  · rw [if_neg hnothing, if_neg hnothing]
    have hpolicy : (scan after input policy).files = (scan after input .keepGoing).files := by
      rw [scan_files_eq after input policy, hsameErrors, if_neg hnothing]
    have hschema : ∀ below path,
        SchemaFileAt input.bytes later below path ↔
          SchemaFileAt input.bytes entries below path := by
      intro below path
      by_cases hplace : root ++ below = place
      · constructor
        · intro hfile
          -- such a file is listed, and the entry at the place is not
          have hlisted : path ∈ (scan after input policy).files := by
            rw [hpolicy]
            exact hfiles'.mem_iff.mpr ⟨below, hfile⟩
          exact absurd ⟨root, later, below, path, hresolve, hroot', hfile, hplace, hlisted⟩ hlists
        · exact .at_place hdiffers hroot hroot' hfound hplace
      · exact ⟨.of_differsOnlyAt hdiffers.symm hroot' hroot hplace,
          .of_differsOnlyAt hdiffers hroot hroot' hplace⟩
    exact (hfiles'.congr hschema).unique Location.not_before_of_before hfiles

end Discovery

end SchemaEnums
