import SchemaEnums.Proofs.Discovery.OneEntry
import SchemaEnums.Proofs.Path.Components

/-!
# The names of schema files

An enum that is the whole content of a file has the name of the file, without the ending that all
schema files have.  Only a file that is called like the ending keeps it, and so it has its name in
common with one other file that can stand beside it.

* `NamesEntry`: how a name without the ending belongs to a name with it.
* `NamesEntry.eq_iff`: **two entries have the same name without the ending** only if they are
  `.json` and `.json.json`.
* `Path.schemaName_of_append`: the name of a file is read off its last component alone.
* `SchemaFileAt.exists_fileName`: the last component of a schema file's path is the name of its entry.
* `Discovery.ListsIn`: a scan lists a path, which leads to an entry of a given name.
* `Discovery.schemaName_of_listsIn`: **every path that a scan lists has the name of its entry
  without the ending**, but for the entry that is called like the ending.
-/

namespace SchemaEnums

open Path.Component (Normal)

variable {name otherName stem otherStem : String}

/-! ### Names without their ending -/

/-- A name without the ending belongs to the name of an entry: the ending behind it gives the name
of the entry, unless that is nothing but the ending. -/
def NamesEntry (stem name : String) : Prop :=
  if name = ".json" then stem = ".json" else stem ++ ".json" = name

theorem namesEntry_append (stem : String) :
    NamesEntry (if stem = "" then ".json" else stem) (stem ++ ".json") := by
  unfold NamesEntry
  by_cases hempty : stem = ""
  · rw [hempty]
    decide
  · have hne : stem ++ ".json" ≠ ".json" := fun h =>
      hempty ((String.append_left_inj ".json").mp (h.trans String.empty_append.symm))
    rw [if_neg hne, if_neg hempty]

theorem NamesEntry.ne_empty (h : NamesEntry stem name) : stem ≠ "" := by
  unfold NamesEntry at h
  split at h
  · rw [h]
    decide
  · rename_i hne
    rintro rfl
    exact hne h.symm

theorem NamesEntry.mem_of_mem {c : Char} (h : NamesEntry stem name) (hc : c ∈ stem.toList) :
    c ∈ name.toList := by
  unfold NamesEntry at h
  split at h
  · rename_i hname
    rwa [hname, ← h]
  · rw [← h, String.toList_append]
    exact List.mem_append_left _ hc

/-- **Two entries have the same name without the ending** only if one of them is called like the
ending and the other has it twice. -/
theorem NamesEntry.eq_iff (h : NamesEntry stem name) (hother : NamesEntry otherStem otherName)
    (hne : otherName ≠ name) :
    otherStem = stem ↔
      (name = ".json" ∧ otherName = ".json.json") ∨ (name = ".json.json" ∧ otherName = ".json") := by
  have htwice : (".json" : String) ++ ".json" = ".json.json" := by decide
  unfold NamesEntry at h hother
  by_cases hname : name = ".json"
  · have hotherName : otherName ≠ ".json" := fun heq => hne (heq.trans hname.symm)
    rw [if_pos hname] at h
    rw [if_neg hotherName] at hother
    simp only [hname, hotherName, true_and, and_false, or_false]
    rw [h, ← hother, ← htwice, String.append_left_inj]
  · rw [if_neg hname] at h
    by_cases hotherName : otherName = ".json"
    · rw [if_pos hotherName] at hother
      simp only [hname, hotherName, false_and, and_true, false_or]
      rw [hother, ← h, ← htwice, String.append_left_inj, eq_comm]
    · rw [if_neg hotherName] at hother
      simp only [hname, hotherName, false_and, and_false, or_false, iff_false]
      rintro rfl
      exact hne (hother.symm.trans h)

theorem dropEnding?_append {α : Type} [DecidableEq α] (front ending : List α) :
    dropEnding? ending (front ++ ending) = some front := by
  have hsuffix : ending.isSuffixOf (front ++ ending) :=
    List.isSuffixOf_iff_suffix.mpr (List.suffix_append front ending)
  rw [dropEnding?, if_pos hsuffix, List.length_append, Nat.add_sub_cancel, List.take_left]

theorem Path.schemaName_of_append {path : Path} (h : path.fileName? = some (stem ++ ".json")) :
    path.schemaName = if stem = "" then ".json" else stem := by
  have hdrop : dropEnding? schemaEnding.toList (stem ++ ".json").toList = some stem.toList := by
    rw [String.toList_append]
    exact dropEnding?_append stem.toList schemaEnding.toList
  unfold schemaName
  simp only [h, Option.getD_some, hdrop]
  cases hstem : stem.toList with
  | nil =>
    obtain rfl := String.toList_eq_nil_iff.mp hstem
    rfl
  | cons c rest =>
    have hne : stem ≠ "" := by
      rintro rfl
      cases hstem
    rw [if_neg hne, ← String.ofList_toList (s := stem), hstem]

/-! ### The names of entries -/

theorem normal_of_encode {segment : List Char} {last : Name}
    (h : Utf8.encode segment = last.val) : Normal segment := by
  obtain ⟨hspecial, -, hslash, -⟩ := last.property
  rw [← h] at hspecial hslash
  refine ⟨?_, ?_, ?_, mt Utf8.slash_mem_iff.mpr hslash⟩
  · rintro rfl
    exact hspecial (by decide)
  · rintro rfl
    exact hspecial (by decide)
  · rintro rfl
    exact hspecial (by decide)

variable {fs : FileSystem} {policy : DiscoveryPolicy} {dir : List UInt8} {entries : Entries}
  {front : Location} {last : Name} {root path other : Path}

/-- The last component of a schema file's path is the name of its entry, which has the ending. -/
theorem SchemaFileAt.exists_fileName (hdir : dir ≠ [])
    (h : SchemaFileAt dir entries (front ++ [last]) path) :
    ∃ stem, last.val = Utf8.encode (stem ++ ".json").toList ∧
      path.fileName? = some (stem ++ ".json") ∧ Normal (stem ++ ".json").toList := by
  obtain ⟨hbytes, entry, name, hvisit, -, hlast, hends⟩ := h
  rw [List.getLast?_concat, Option.some.injEq] at hlast
  subst hlast
  -- the last segment of the path is the entry's name
  obtain ⟨init, hinit⟩ := Location.splitOn_pathTo hdir
  have hsegments := hinit (front ++ [last]) hvisit.ne_nil
  rw [← hbytes, Path.bytes_eq, Utf8.splitOn_encode] at hsegments
  have hgetLast := congrArg List.getLast? hsegments
  rw [List.getLast?_map, List.map_append, List.map_singleton, ← List.append_assoc,
    List.getLast?_concat, Option.map_eq_some_iff] at hgetLast
  obtain ⟨segment, hsegment, hencode⟩ := hgetLast
  -- and the ending is that of the text as well
  rw [← hencode, schemaBytes, Utf8.suffix_iff (by decide)] at hends
  obtain ⟨stem, rfl⟩ := hends
  have hname : (String.ofList stem ++ ".json").toList = stem ++ schemaEnding.toList := by
    rw [String.toList_append, String.toList_ofList]
    rfl
  have hnormal := normal_of_encode hencode
  refine ⟨.ofList stem, ?_, ?_, ?_⟩
  · rw [hname, hencode]
  · rw [Path.fileName?_of_getLast? hsegment hnormal, ← hname, String.ofList_toList]
  · rw [hname]
    exact hnormal

namespace Discovery

/-- A scan lists a path, which leads to the entry of the given name in the directory at `front` below
the root. -/
def ListsIn (fs : FileSystem) (root : Path) (policy : DiscoveryPolicy) (front : Location)
    (name : String) (path : Path) : Prop :=
  path ∈ (scan fs root policy).files ∧
    ∃ entries last, fs.stat root = .ok (.directory entries) ∧
      SchemaFileAt root.bytes entries (front ++ [last]) path ∧ last.val = Utf8.encode name.toList

theorem ListsIn.exists_fileName (h : ListsIn fs root policy front name path) :
    ∃ stem, name = stem ++ ".json" ∧ path.fileName? = some name ∧ Normal name.toList := by
  obtain ⟨-, entries, last, hstat, hfile, hlast⟩ := h
  have hdir := Path.bytes_ne_nil_of_refusal? (FileSystem.refusal?_of_stat hstat)
  obtain ⟨stem, hstem, hfileName, hnormal⟩ := hfile.exists_fileName hdir
  obtain rfl : name = stem ++ ".json" :=
    String.toList_inj.mp (Utf8.encode_injective (hlast.symm.trans hstem))
  exact ⟨stem, rfl, hfileName, hnormal⟩

theorem ListsIn.namesEntry (h : ListsIn fs root policy front name path) :
    NamesEntry path.schemaName name := by
  obtain ⟨stem, rfl, hfileName, -⟩ := h.exists_fileName
  rw [Path.schemaName_of_append hfileName]
  exact namesEntry_append stem

theorem ListsIn.path_eq (h : ListsIn fs root policy front name path)
    (hother : ListsIn fs root policy front name other) : other = path := by
  obtain ⟨-, entries, last, -, ⟨hbytes, -⟩, hlast⟩ := h
  obtain ⟨-, entries', last', -, ⟨hbytes', -⟩, hlast'⟩ := hother
  obtain rfl : last' = last := Subtype.ext (hlast'.trans hlast.symm)
  have hsame := hbytes'.trans hbytes.symm
  rw [Path.bytes_eq, Path.bytes_eq] at hsame
  exact congrArg Path.mk (String.toList_inj.mp (Utf8.encode_injective hsame))

theorem exists_listsIn_of_mem (h : path ∈ (scan fs root policy).files) :
    ∃ front name, ListsIn fs root policy front name path := by
  obtain ⟨entries, hstat⟩ := exists_stat_of_mem_scan h
  obtain ⟨place, hfile⟩ := (enumerates_scan hstat).1.mem_iff.mp (mem_keepGoing_of_mem_scan h)
  obtain ⟨front, last, rfl⟩ := (List.eq_nil_or_concat' place).resolve_left hfile.ne_nil
  have hdir := Path.bytes_ne_nil_of_refusal? (FileSystem.refusal?_of_stat hstat)
  obtain ⟨stem, hlast, -⟩ := hfile.exists_fileName hdir
  exact ⟨front, _, h, entries, last, hstat, hfile, hlast⟩

/-- **Every path that a scan lists has the name of its entry without the ending**, but for the entry
that is called like the ending and keeps its name.  So the name is not empty, holds no slash and is
the name that the bare entry would have, whatever the root is; and two paths to entries of one
directory have the same name exactly if the entries are `.json` and `.json.json`. -/
theorem schemaName_of_listsIn (fs : FileSystem) (root : Path) (policy : DiscoveryPolicy) :
    (∀ path ∈ (scan fs root policy).files, ∃ front name, ListsIn fs root policy front name path) ∧
      ∀ front name path, ListsIn fs root policy front name path →
        NamesEntry path.schemaName name ∧ path.schemaName ≠ "" ∧ '/' ∉ path.schemaName.toList ∧
          path.schemaName = Path.schemaName ⟨name⟩ ∧
          ∀ otherName other, ListsIn fs root policy front otherName other → other ≠ path →
            (other.schemaName = path.schemaName ↔
              (name = ".json" ∧ otherName = ".json.json") ∨
                (name = ".json.json" ∧ otherName = ".json")) := by
  refine ⟨fun path hmem => exists_listsIn_of_mem hmem, ?_⟩
  intro front name path hlists
  have hentry := hlists.namesEntry
  obtain ⟨stem, hstem, hfileName, hnormal⟩ := hlists.exists_fileName
  refine ⟨hentry, hentry.ne_empty, fun hslash => hnormal.slash_notMem (hentry.mem_of_mem hslash),
    ?_, ?_⟩
  · have hbare := Path.fileName?_of_normal hnormal
    rw [hstem] at hfileName hbare ⊢
    rw [Path.schemaName_of_append hfileName, Path.schemaName_of_append hbare]
  · intro otherName other hother hne
    refine hentry.eq_iff hother.namesEntry ?_
    rintro rfl
    exact hne (hlists.path_eq hother)

/-- The name `.json`. -/
def endingName : Name := ⟨[46, 106, 115, 111, 110], by decide⟩

/-- The name `.json.json`. -/
def twiceEndingName : Name := ⟨[46, 106, 115, 111, 110, 46, 106, 115, 111, 110], by decide⟩

/-- Files with these names. -/
def endingEntries : Entries :=
  [(endingName, .file ⟨#[]⟩), (twiceEndingName, .file ⟨#[]⟩)]

theorem ordered_endingEntries : Entries.Ordered endingEntries := by
  have hbefore : endingName.val < twiceEndingName.val := by decide
  exact ⟨trivial, by simpa using hbefore, trivial, by simp, trivial⟩

/-- The directory `schemas` with these files. -/
def endings : FileSystem where
  entries := [(⟨[115, 99, 104, 101, 109, 97, 115], by decide⟩, .directory endingEntries)]
  ordered := ⟨ordered_endingEntries, by simp, trivial⟩
  workingDir := []

theorem files_endings :
    (scan endings ⟨"./schemas/."⟩ .failOpen).files =
      [⟨"./schemas/./.json"⟩, ⟨"./schemas/./.json.json"⟩] := by
  decide

theorem stat_endings : endings.stat ⟨"./schemas/."⟩ = .ok (.directory endingEntries) := rfl

theorem listable_endings :
    Listing.Listable (⟨"./schemas/."⟩ : Path).bytes (.directory endingEntries) :=
  Listing.listable_directory (by decide) endingEntries

theorem listsIn_endings :
    ListsIn endings ⟨"./schemas/."⟩ .failOpen [] ".json" ⟨"./schemas/./.json"⟩ ∧
      ListsIn endings ⟨"./schemas/."⟩ .failOpen [] ".json.json" ⟨"./schemas/./.json.json"⟩ := by
  have hfile := Entry.not_isDirectory_file ⟨#[]⟩
  refine ⟨⟨?_, _, endingName, stat_endings,
      ⟨?_, _, _, .here listable_endings rfl, hfile, rfl, ?_⟩, ?_⟩,
    ⟨?_, _, twiceEndingName, stat_endings,
      ⟨?_, _, _, .here listable_endings rfl, hfile, rfl, ?_⟩, ?_⟩⟩
  · rw [files_endings]
    exact List.mem_cons_self
  · decide
  · decide
  · decide
  · rw [files_endings]
    exact List.mem_cons_of_mem _ List.mem_cons_self
  · decide
  · decide
  · decide

/-- The two files whose names are nothing but endings have the same name. -/
theorem schemaName_of_listsIn_endings :
    ListsIn endings ⟨"./schemas/."⟩ .failOpen [] ".json" ⟨"./schemas/./.json"⟩ ∧
      ListsIn endings ⟨"./schemas/."⟩ .failOpen [] ".json.json" ⟨"./schemas/./.json.json"⟩ ∧
      (⟨"./schemas/./.json"⟩ : Path).schemaName = ".json" ∧
      (⟨"./schemas/./.json.json"⟩ : Path).schemaName = (⟨"./schemas/./.json"⟩ : Path).schemaName := by
  obtain ⟨hending, htwice⟩ := listsIn_endings
  obtain ⟨-, hnames⟩ := schemaName_of_listsIn endings ⟨"./schemas/."⟩ .failOpen
  obtain ⟨hentry, -, -, -, hsame⟩ := hnames _ _ _ hending
  exact ⟨hending, htwice, hentry, (hsame _ _ htwice (by decide)).mpr (Or.inl ⟨rfl, rfl⟩)⟩

end Discovery

end SchemaEnums
