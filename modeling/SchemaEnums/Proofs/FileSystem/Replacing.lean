import SchemaEnums.Output
import SchemaEnums.Proofs.FileSystem.Following
import SchemaEnums.Proofs.FileSystem.Temporary

/-!
# Replacing a file leaves nothing else

`FileSystem.replaceFile` works through a temporary file.  If it fails, the file system is the old
one (`replaceFile_error`); if it succeeds, the file system is the old one with a single name put
(`replaceFile_ok`).

* `temporaryPlace_ok`: the temporary file gets a fresh name in the directory that the path leads to.
* `put_put`, `erase_put`: **what is done to the temporary file cancels out.**
* `follow_parent_of_resolve`: the output's path and the directory's path lead to the same directory,
  however the directory is spelled.
* `replaceFile_eq_ok`: when a replacement succeeds.
* `HasRoom`: there is a free temporary name in a directory, as there is in every one of fewer than
  `10 ^ 243` entries (`hasRoom_of_length_lt`).
* `replaceFile_again`: **a replacement that is repeated succeeds and changes nothing**, if the
  directory's path still leads to the directory.
-/

namespace SchemaEnums.FileSystem

variable {fs : FileSystem} {location there : Location} {name last : Name} {dir target : Path}
  {content : ByteArray}

/-! ### The temporary file -/

/-- Where a temporary file can be made: the directory's path is short enough, it leads to a
directory, and there is a free name in it. -/
theorem temporaryPlace_eq_ok_iff :
    fs.temporaryPlace dir = .ok (location, name) ↔
      0 ∉ dir.bytes ∧ (joinWith 47 dir.bytes (Output.temporaryName 0)).length ≤ maxPathLength ∧
        fs.resolve dir = .ok location ∧
        ∃ entries, fs.entriesAt? location = some entries ∧
          Output.freshName? entries = some name := by
  unfold temporaryPlace
  constructor
  · intro h
    split at h
    · cases h
    rename_i hzero
    split at h
    · cases h
    rename_i hlength
    split at h
    · cases h
    rename_i hresolve
    split at h
    · cases h
    rename_i entries hopen
    split at h
    · cases h
    rename_i hfresh
    cases h
    exact ⟨hzero, Nat.le_of_not_lt hlength, hresolve, entries, openDirectory_eq_ok_iff.mp hopen,
      hfresh⟩
  · rintro ⟨hzero, hlength, hresolve, entries, hat, hfresh⟩
    rw [← openDirectory_eq_ok_iff] at hat
    simp only [if_neg hzero, if_neg (Nat.not_lt.mpr hlength), hresolve, hat, hfresh]

theorem temporaryPlace_ok (h : fs.temporaryPlace dir = .ok (location, name)) :
    fs.resolve dir = .ok location ∧
      ∃ entries, fs.entriesAt? location = some entries ∧ entries.lookup name = none := by
  obtain ⟨-, -, hresolve, entries, hat, hfresh⟩ := temporaryPlace_eq_ok_iff.mp h
  exact ⟨hresolve, entries, hat, Output.lookup_of_freshName? hfresh⟩

theorem fresh_of_lookup {entries : Entries} (hat : fs.entriesAt? location = some entries)
    (hlookup : entries.lookup name = none) : fs.Fresh location name := by
  intro inner hinner
  cases hat.symm.trans hinner
  exact hlookup

theorem put_put (location : Location) (name : Name) {first second : Entry}
    (hfirst : first.Ordered) (hsecond : second.Ordered) (fs : FileSystem) :
    (fs.put location name first hfirst).put location name second hsecond =
      fs.put location name second hsecond := by
  refine ext_of ?_ rfl
  simp only [put]
  rw [Entries.update_update]
  congr 1
  funext inner
  exact Entries.put_put name first second inner

/-- **A fresh name that is put and erased leaves no trace.** -/
theorem erase_put {entries : Entries} (hat : fs.entriesAt? location = some entries)
    (hfresh : entries.lookup name = none) {entry : Entry} (hentry : entry.Ordered) :
    (fs.put location name entry hentry).erase location name = fs := by
  refine ext_of ?_ rfl
  simp only [put, erase]
  rw [Entries.update_update]
  exact Entries.update_eq_self location fs.ordered ((entriesAt?_eq fs location).symm.trans hat)
    (Entries.erase_put_of_fresh hfresh entry)

/-- **A replacement that fails leaves the file system as it was.** -/
theorem replaceFile_error {error : ReplaceError} {after : FileSystem}
    (h : fs.replaceFile dir target content = (.error error, after)) : after = fs := by
  unfold replaceFile at h
  simp only at h
  split at h
  · cases h
    rfl
  · rename_i location name hplace
    obtain ⟨-, entries, hat, hfresh⟩ := temporaryPlace_ok hplace
    split at h
    · cases h
      rw [put_put, erase_put hat hfresh]
    · cases h

/-! ### The directory of the output -/

theorem orHere_of_bytes (h : dir.bytes = []) : dir.orHere = ⟨"."⟩ := by
  rw [Path.bytes_eq, Utf8.encode_eq_nil_iff] at h
  rw [Path.orHere, if_pos (String.toList_eq_nil_iff.mp h)]

theorem orHere_of_bytes_ne (h : dir.bytes ≠ []) : dir.orHere = dir := by
  rw [Path.bytes_eq, Ne, Utf8.encode_eq_nil_iff] at h
  rw [Path.orHere, if_neg (mt String.toList_eq_nil_iff.mpr h)]

theorem segments_join (dir : Path) {name : String} (hname : '/' ∉ name.toList) :
    ∃ front, (dir.join name).segments = front ++ [Utf8.encode name.toList] ∧
      (dir.orHere.segments = front ∨
        ∃ idle, (idle = [] ∨ idle = [46]) ∧ dir.orHere.segments = front ++ [idle]) := by
  have hslash : 47 ∉ Utf8.encode name.toList := mt Utf8.slash_mem_iff.mp hname
  have hsingle := List.splitOn_eq_singleton hslash
  by_cases hempty : dir.bytes = []
  · rw [Path.segments, Path.bytes_join, hempty, joinWith_of_complete (Or.inl rfl),
      orHere_of_bytes hempty]
    exact ⟨[], hsingle, Or.inr ⟨[46], Or.inr rfl, by decide⟩⟩
  rw [orHere_of_bytes_ne hempty, Path.segments, Path.segments, Path.bytes_join]
  obtain ⟨first, rest, idle, hjoin, hdir, rfl | rfl⟩ := splitOn_joinWith hempty hslash
  · rw [List.append_nil] at hdir
    exact ⟨first :: rest, hjoin, Or.inl hdir⟩
  · exact ⟨first :: rest, hjoin, Or.inr ⟨[], Or.inl rfl, hdir⟩⟩

theorem start_join (dir : Path) {name : String} (hname : '/' ∉ name.toList) (here : Location) :
    (dir.join name).start here = dir.orHere.start here := by
  have hslash : 47 ∉ Utf8.encode name.toList := mt Utf8.slash_mem_iff.mp hname
  by_cases hempty : dir.bytes = []
  · rw [orHere_of_bytes hempty, Path.start, Path.start, Path.bytes_join, hempty,
      joinWith_of_complete (Or.inl rfl), if_neg, if_neg]
    · decide
    · exact fun h => hslash (List.mem_of_mem_head? h)
  · rw [orHere_of_bytes_ne hempty, Path.start, Path.start, Path.bytes_join]
    obtain ⟨b, rest, hbytes⟩ := List.exists_cons_of_ne_nil hempty
    rw [hbytes]
    by_cases hlast : (b :: rest).getLast? = some 47
    · rw [joinWith_of_complete (Or.inr hlast)]
      rfl
    · rw [joinWith_of_open (by simp [hlast])]
      rfl

/-- **The path of an output and the path of its directory lead to the same directory**, however the
directory is spelled. -/
theorem follow_parent_of_resolve {name : String} (hname : '/' ∉ name.toList)
    (h : fs.resolve dir.orHere = .ok location) :
    fs.follow maxLinks ((dir.join name).start fs.workingDir) (dir.join name).segments.dropLast =
        .ok location ∧
      (dir.join name).segments.getLast? = some (Utf8.encode name.toList) := by
  obtain ⟨front, hjoin, hdir⟩ := segments_join dir hname
  rw [hjoin, List.dropLast_concat, List.getLast?_concat, start_join dir hname]
  refine ⟨?_, rfl⟩
  unfold resolve at h
  split at h
  · cases h
  rcases hdir with hdir | ⟨idle, hidle, hdir⟩
  · rwa [hdir] at h
  · rw [hdir] at h
    exact follow_of_append_idle hidle h

/-! ### The rename -/

theorem resolveParent_ok {bytes : List UInt8} (h : fs.resolveParent target = .ok (there, bytes)) :
    fs.follow maxLinks (target.start fs.workingDir) target.segments.dropLast = .ok there ∧
      target.segments.getLast?.getD [] = bytes ∧ ∃ entries, fs.entriesAt? there = some entries := by
  unfold resolveParent at h
  split at h
  · cases h
  split at h
  · cases h
  rename_i hfollow
  split at h
  · cases h
  rename_i entries hopen
  cases h
  exact ⟨hfollow, rfl, entries, openDirectory_eq_ok_iff.mp hopen⟩

theorem rename_ok {after : FileSystem} (h : fs.rename location name target = .ok after) :
    ∃ there last content, fs.resolveParent target = .ok (there, last.val) ∧
      (∀ old ∈ (fs.entriesAt? there).bind (·.lookup last), ¬ old.isDirectory) ∧
      (fs.entriesAt? location).bind (·.lookup name) = some (.file content) ∧
      after =
        (fs.erase location name).put there last (.file content) (Entry.ordered_file content) := by
  unfold rename at h
  split at h
  · cases h
  split at h
  · cases h
  rename_i there bytes hparent
  split at h
  · cases h
  split at h
  · cases h
  rename_i last hlast
  obtain rfl := Name.ofBytes?_eq_some_iff.mp hlast
  split at h
  · cases h
  rename_i hany
  have hleaf : ∀ old ∈ (fs.entriesAt? there).bind (·.lookup last), ¬ old.isDirectory :=
    fun old hold hdirectory => hany ((Option.any_eq_true _ _).mpr ⟨old, hold, hdirectory⟩)
  split at h
  · rename_i hfile
    cases h
    exact ⟨there, last, _, hparent, hleaf, hfile, rfl⟩
  · cases h

/-- The output's path leads to the directory of the temporary file, also once that file is there. -/
theorem resolveParent_put_of_fresh {name : String} (hname : '/' ∉ name.toList)
    (hresolve : fs.resolve dir.orHere = .ok location) {temporary : Name}
    (hfresh : fs.Fresh location temporary) {entry : Entry} (hentry : entry.Ordered)
    {bytes : List UInt8}
    (h : (fs.put location temporary entry hentry).resolveParent (dir.join name) =
      .ok (there, bytes)) :
    there = location ∧ bytes = Utf8.encode name.toList := by
  obtain ⟨hfollow, hlast⟩ := follow_parent_of_resolve hname hresolve
  obtain ⟨hthere, hbytes, -⟩ := resolveParent_ok h
  have hput := follow_put hfresh hentry hfollow
  refine ⟨Except.ok.inj (hthere.symm.trans hput), ?_⟩
  rw [← hbytes, hlast]
  rfl

theorem replaceFile_eq_ok_iff {after : FileSystem} :
    fs.replaceFile dir target content = (.ok (), after) ↔
      ∃ location temporary, fs.temporaryPlace dir.orHere = .ok (location, temporary) ∧
        (fs.put location temporary (.file content) (Entry.ordered_file content)).rename location
          temporary target = .ok after := by
  unfold replaceFile
  dsimp only
  cases hplace : fs.temporaryPlace dir.orHere with
  | error error => simp
  | ok place =>
    obtain ⟨location, temporary⟩ := place
    simp only [put_put, Except.ok.injEq, Prod.mk.injEq, and_assoc]
    split
    · rename_i error hrename
      simp [hrename]
    · rename_i renamed hrename
      simp [hrename]

/-- **A replacement that succeeds puts one name, in the directory that the directory's path leads
to.**  What had the name before was no directory. -/
theorem replaceFile_ok {name : String} (hname : '/' ∉ name.toList) {after : FileSystem}
    (h : fs.replaceFile dir (dir.join name) content = (.ok (), after)) :
    ∃ location entries last, fs.resolve dir.orHere = .ok location ∧
      fs.entriesAt? location = some entries ∧ last.val = Utf8.encode name.toList ∧
      (∀ old ∈ entries.lookup last, ¬ old.isDirectory) ∧
      after = fs.put location last (.file content) (Entry.ordered_file content) := by
  obtain ⟨location, temporary, hplace, hrename⟩ := replaceFile_eq_ok_iff.mp h
  obtain ⟨hresolve, entries, hat, hfresh⟩ := temporaryPlace_ok hplace
  obtain ⟨there, last, moved, hparent, hleaf, hfile, rfl⟩ := rename_ok hrename
  obtain ⟨rfl, hlast⟩ :=
    resolveParent_put_of_fresh hname hresolve (fresh_of_lookup hat hfresh) _ hparent
  have hwritten := entriesAt?_put_self hat temporary (Entry.ordered_file content)
  rw [hwritten, Option.bind_some] at hfile
  obtain rfl : content = moved := by
    rw [Entries.lookup_put_self] at hfile
    cases hfile
    rfl
  refine ⟨there, entries, last, hresolve, hat, hlast, ?_, ?_⟩
  · intro old hold
    have hne : last ≠ temporary := by
      rintro rfl
      cases hfresh.symm.trans hold
    refine hleaf old ?_
    rw [hwritten, Option.bind_some, Entries.lookup_put_of_ne hne]
    exact hold
  · rw [erase_put hat hfresh]

/-! ### A replacement that succeeds -/

theorem refusal?_of_resolveParent {parent : Location × List UInt8}
    (h : fs.resolveParent target = .ok parent) : target.refusal? = none := by
  unfold resolveParent at h
  split at h
  · cases h
  · assumption

theorem zero_notMem_of_refusal? (h : target.refusal? = none) : 0 ∉ target.bytes := by
  intro hzero
  rw [Path.refusal?, if_pos hzero] at h
  cases h

theorem resolveParent_eq_ok {entries : Entries} {bytes : List UInt8}
    (hrefusal : target.refusal? = none)
    (hfollow : fs.follow maxLinks (target.start fs.workingDir) target.segments.dropLast = .ok there)
    (hat : fs.entriesAt? there = some entries) (hlast : target.segments.getLast? = some bytes) :
    fs.resolveParent target = .ok (there, bytes) := by
  rw [← openDirectory_eq_ok_iff] at hat
  unfold resolveParent
  simp only [hrefusal, hfollow, hat, hlast, Option.getD_some]

theorem rename_eq_ok (hparent : fs.resolveParent target = .ok (there, last.val))
    (hleaf : ∀ old ∈ (fs.entriesAt? there).bind (·.lookup last), ¬ old.isDirectory)
    (hfile : (fs.entriesAt? location).bind (·.lookup name) = some (.file content)) :
    fs.rename location name target =
      .ok ((fs.erase location name).put there last (.file content)
        (Entry.ordered_file content)) := by
  have hzero := zero_notMem_of_refusal? (refusal?_of_resolveParent hparent)
  have hlength : ¬ last.val.length > 255 := Nat.not_lt.mpr last.property.2.2.2
  have hlast : Name.ofBytes? last.val = some last := Name.ofBytes?_eq_some_iff.mpr rfl
  have hany : ¬ ((fs.entriesAt? there).bind (·.lookup last)).any Entry.isDirectory := by
    rw [Option.any_eq_true]
    rintro ⟨old, hold, hdirectory⟩
    exact hleaf old hold hdirectory
  unfold rename
  simp only [if_neg hzero, hparent, if_neg hlength, hlast, if_neg hany, hfile]

/-- **A replacement succeeds** if a temporary file can be made, the output's path is one that can be
followed, and no directory has the name of the output. -/
theorem replaceFile_eq_ok {name : String} (hname : '/' ∉ name.toList)
    (hrefusal : (dir.join name).refusal? = none) {temporary : Name}
    (hplace : fs.temporaryPlace dir.orHere = .ok (location, temporary))
    (hlast : last.val = Utf8.encode name.toList) {entries : Entries}
    (hat : fs.entriesAt? location = some entries)
    (hold : ∀ old ∈ entries.lookup last, ¬ old.isDirectory) :
    fs.replaceFile dir (dir.join name) content =
      (.ok (), fs.put location last (.file content) (Entry.ordered_file content)) := by
  obtain ⟨hresolve, found, hfound, hfresh⟩ := temporaryPlace_ok hplace
  cases hfound.symm.trans hat
  have hwritten := entriesAt?_put_self hat temporary (Entry.ordered_file content)
  obtain ⟨hfollow, hsegment⟩ := follow_parent_of_resolve hname hresolve
  have hparent :
      (fs.put location temporary (.file content) (Entry.ordered_file content)).resolveParent
        (dir.join name) = .ok (location, last.val) := by
    rw [hlast]
    exact resolveParent_eq_ok hrefusal (follow_put (fresh_of_lookup hat hfresh) _ hfollow) hwritten
      hsegment
  have hleaf : ∀ old ∈ (Entries.put temporary (.file content) entries).lookup last,
      ¬ old.isDirectory := by
    by_cases heq : last = temporary
    · rw [heq, Entries.lookup_put_self]
      rintro _ ⟨⟩
      exact Entry.not_isDirectory_file content
    · rw [Entries.lookup_put_of_ne heq]
      exact hold
  refine replaceFile_eq_ok_iff.mpr ⟨location, temporary, hplace, ?_⟩
  rw [rename_eq_ok hparent ?_ ?_, erase_put hat hfresh]
  · rw [hwritten, Option.bind_some]
    exact hleaf
  · rw [hwritten, Option.bind_some, Entries.lookup_put_self]

/-! ### Once more -/

/-- There is a free temporary name in the directory at a location. -/
def HasRoom (fs : FileSystem) (location : Location) : Prop :=
  ∀ entries, fs.entriesAt? location = some entries → (Output.freshName? entries).isSome

theorem hasRoom_of_length_lt {entries : Entries} (hat : fs.entriesAt? location = some entries)
    (h : entries.length < 10 ^ 243) : fs.HasRoom location := by
  intro found hfound
  cases hfound.symm.trans hat
  exact Output.isSome_freshName?_of_length_lt h

/-- A temporary file can be made again once a name has been put, unless this name was the only
temporary one that was free. -/
theorem temporaryPlace_again {after : FileSystem} {entries : Entries} {entry : Entry}
    (h : fs.temporaryPlace dir = .ok (location, name)) (hat : fs.entriesAt? location = some entries)
    (hresolve : after.resolve dir = .ok location)
    (hat' : after.entriesAt? location = some (Entries.put last entry entries))
    (hroom : ∀ n, last.val = Output.temporaryName n → after.HasRoom location) :
    ∃ fresh, after.temporaryPlace dir = .ok (location, fresh) := by
  obtain ⟨hzero, hlength, -, found, hfound, hfresh⟩ := temporaryPlace_eq_ok_iff.mp h
  cases hfound.symm.trans hat
  have hsome : (Output.freshName? (Entries.put last entry entries)).isSome := by
    by_cases heq : name = last
    · obtain ⟨n, -, hname⟩ := Output.exists_temporaryName_of_freshName? hfresh
      exact hroom n (heq ▸ hname) _ hat'
    · exact Output.isSome_freshName?_put hfresh heq entry
  obtain ⟨fresh, hsome⟩ := Option.isSome_iff_exists.mp hsome
  exact ⟨fresh, temporaryPlace_eq_ok_iff.mpr ⟨hzero, hlength, hresolve, _, hat', hsome⟩⟩

/-- **A replacement that is repeated succeeds and changes nothing**, if the directory's path still
leads to the directory.  Room for the second temporary file is left by the first one, unless the file
that is replaced has got its name. -/
theorem replaceFile_again {name : String} (hname : '/' ∉ name.toList) {after : FileSystem}
    (h : fs.replaceFile dir (dir.join name) content = (.ok (), after))
    (hresolve : fs.resolve dir.orHere = .ok location)
    (hresolve' : after.resolve dir.orHere = .ok location)
    (hroom : ∀ n, Utf8.encode name.toList = Output.temporaryName n → after.HasRoom location) :
    after.replaceFile dir (dir.join name) content = (.ok (), after) := by
  obtain ⟨first, temporary, hfirst, hrename⟩ := replaceFile_eq_ok_iff.mp h
  obtain ⟨_, _, _, hparent, -⟩ := rename_ok hrename
  have hrefusal := refusal?_of_resolveParent hparent
  obtain ⟨there, entries, last, hthere, hat, hlast, -, hafter⟩ := replaceFile_ok hname h
  cases hthere.symm.trans hresolve
  obtain ⟨hfirstResolve, -⟩ := temporaryPlace_ok hfirst
  cases hfirstResolve.symm.trans hresolve
  have hat' : after.entriesAt? location = some (Entries.put last (.file content) entries) := by
    rw [hafter]
    exact entriesAt?_put_self hat last (Entry.ordered_file content)
  obtain ⟨fresh, hplace⟩ := temporaryPlace_again hfirst hat hresolve' hat'
    fun n hn => hroom n (hlast.symm.trans hn)
  have hold : ∀ old ∈ (Entries.put last (.file content) entries).lookup last,
      ¬ old.isDirectory := by
    rw [Entries.lookup_put_self]
    rintro _ ⟨⟩
    exact Entry.not_isDirectory_file content
  rw [replaceFile_eq_ok hname hrefusal hplace hlast hat' hold, hafter, put_put]

end SchemaEnums.FileSystem
