import SchemaEnums.Proofs.FileSystem.OneEntry
import SchemaEnums.Proofs.Generator.Written

/-!
# What a run that has written leaves alone

The temporary file is made through one path and renamed to another one.  Both lead to the same
directory, so behind the run there is one entry that is new, the output, and all others are the old
ones.

* `run_written_put`: behind a run that has written, a single name has been put.
* `differsOnlyAt_run_written`: so one entry has changed, and a file stands there.
* `run_written_frame`: **the file system differs in the entry of the output only.**
-/

namespace SchemaEnums.Generator

variable {generator : Generator} {fs : FileSystem} {path : Path} {enums : Nat}

/-- Behind a run that has written, a single name has been put: that of the output, in the directory
that the output directory leads to. -/
theorem run_written_put (h : (generator.run fs).result = .ok (.written path enums)) :
    ∃ location entries name declarations, fs.resolve generator.outputDir.orHere = .ok location ∧
      fs.entriesAt? location = some entries ∧
      name.val = Utf8.encode generator.fileName.val.toList ∧
      (∀ old ∈ entries.lookup name, ¬ old.isDirectory) ∧
      (Loading.files fs (generator.listed fs)).result = .ok declarations ∧
      (generator.run fs).fileSystem =
        fs.put location name (.file (Declaration.render declarations).toUTF8)
          (Entry.ordered_file _) := by
  obtain ⟨-, declarations, hfiles, -, -, hreplace⟩ := run_written_cases h
  obtain ⟨location, entries, name, hresolve, hat, hname, hold, hafter⟩ :=
    FileSystem.replaceFile_ok generator.fileName.property.2.1 hreplace
  exact ⟨location, entries, name, declarations, hresolve, hat, hname, hold, hfiles, hafter⟩

theorem differsOnlyAt_run_written {location : Location} {name : Name}
    (h : (generator.run fs).result = .ok (.written path enums))
    (hresolve : fs.resolve generator.outputDir.orHere = .ok location)
    (hname : name.val = Utf8.encode generator.fileName.val.toList) :
    fs.DiffersOnlyAt (location ++ [name]) (generator.run fs).fileSystem ∧
      ∃ content, (generator.run fs).fileSystem.entryAt? (location ++ [name]) =
        some (.file content) := by
  obtain ⟨there, entries, last, declarations, hthere, hat, hlast, hold, -, hafter⟩ :=
    run_written_put h
  cases hthere.symm.trans hresolve
  obtain rfl : last = name := Subtype.ext (hlast.trans hname.symm)
  rw [hafter]
  exact ⟨FileSystem.differsOnlyAt_put hat hold (Entry.not_isDirectory_file _) _, _,
    FileSystem.entryAt?_put_self hat last (Entry.ordered_file _)⟩

/-- **What a run that has written leaves alone.**  In the directory that the output directory led to
before the run, the entry of the file name is now a file with the text of the declarations.  All other
entries of all directories are the old ones, and no name has been added besides.  A link in the place
of the output is gone, and the file that it led to keeps its content. -/
theorem run_written_frame (generator : Generator) (fs : FileSystem)
    (h : (generator.run fs).result = .ok (.written path enums)) :
    let after := (generator.run fs).fileSystem
    ∃ location name entries later declarations,
      fs.resolve generator.outputDir.orHere = .ok location ∧
      name.val = Utf8.encode generator.fileName.val.toList ∧
      fs.entriesAt? location = some entries ∧ after.entriesAt? location = some later ∧
      fs.DiffersOnlyAt (location ++ [name]) after ∧
      Enumerates Site.Before (DeclaredAt fs (generator.listed fs)) declarations ∧
      after.entryAt? (location ++ [name]) =
        some (.file (Declaration.render declarations).toUTF8) ∧
      (∀ other, other ∈ later.map Prod.fst ↔ other ∈ entries.map Prod.fst ∨ other = name) ∧
      ∀ target, fs.entryAt? (location ++ [name]) = some (.link target) →
        ∀ there content, fs.resolve generator.outputPath = .ok there →
          fs.entryAt? there = some (.file content) →
          there ≠ location ++ [name] ∧ after.entryAt? there = some (.file content) := by
  intro after
  obtain ⟨location, entries, name, declarations, hresolve, hat, hname, hold, hfiles, hafter⟩ :=
    run_written_put h
  obtain ⟨hdiffers, -⟩ := differsOnlyAt_run_written h hresolve hname
  have hlater : after.entriesAt? location =
      some (Entries.put name (.file (Declaration.render declarations).toUTF8) entries) := by
    show (generator.run fs).fileSystem.entriesAt? location = _
    rw [hafter]
    exact FileSystem.entriesAt?_put_self hat name _
  refine ⟨location, name, entries, _, declarations, hresolve, hname, hat, hlater, hdiffers,
    Loading.enumerates_files hfiles, ?_, fun other => Entries.mem_map_fst_put_iff _, ?_⟩
  · rw [FileSystem.entryAt?_append_singleton, hlater, Option.bind_some, Entries.lookup_put_self]
  · intro target hlink there content _ hcontent
    -- a link is no file, so the file stands elsewhere
    have hne : there ≠ location ++ [name] := by
      rintro rfl
      cases hlink.symm.trans hcontent
    obtain ⟨found, hfound, halike⟩ := hdiffers.exists_alike hne hcontent
    cases halike
    exact ⟨hne, hfound⟩

/-! ### A run over a link -/

/-- A directory with one enum and a link to a file beside the directory. -/
def linkedEntries : Entries :=
  [(jsonName, .file enumText.toUTF8), (targetName, .link ⟨"../keep"⟩)]

theorem ordered_linkedEntries : Entries.Ordered linkedEntries := by
  have hbefore : jsonName.val < targetName.val := by decide
  exact ⟨trivial, by simpa using hbefore, trivial, by simp, trivial⟩

/-- An input directory with one enum and a link, and the file that the link leads to. -/
def linked : FileSystem where
  entries :=
    [(inName, .directory linkedEntries),
      (⟨[107, 101, 101, 112], by decide⟩, .file "old".toUTF8)]
  ordered := ⟨ordered_linkedEntries, by simp [inName]; decide, trivial, by simp, trivial⟩
  workingDir := []

/-- The generator from `in` into `in/./t`, where the link is. -/
def overLink : Generator := ⟨⟨"in"⟩, ⟨"in/."⟩, outputName, .failOpen, .warn⟩

/-- Where `in` is. -/
def linkedPlace : Location := [inName]

theorem entriesAt?_linkedPlace : linked.entriesAt? linkedPlace = some linkedEntries := rfl

theorem resolve_overLink : linked.resolve overLink.outputDir.orHere = .ok linkedPlace := by
  decide

theorem outputPath_overLink : overLink.outputPath = ⟨"in/./t"⟩ := by
  decide

theorem targetName_eq : targetName.val = Utf8.encode overLink.fileName.val.toList := by
  decide

theorem replaceFile_linked (content : ByteArray) :
    linked.replaceFile overLink.outputDir overLink.outputPath content =
      (.ok (), linked.put linkedPlace targetName (.file content) (Entry.ordered_file content)) := by
  have hrefusal : (overLink.outputDir.join overLink.fileName.val).refusal? = none := by
    decide
  have hplace : linked.temporaryPlace overLink.outputDir.orHere =
      .ok (linkedPlace, firstTemporary) := by decide
  have hlink : linkedEntries.lookup targetName = some (.link ⟨"../keep"⟩) := rfl
  exact FileSystem.replaceFile_eq_ok overLink.fileName.property.2.1 hrefusal hplace targetName_eq
    entriesAt?_linkedPlace (by simp [hlink, Entry.isDirectory])

theorem listed_linked : overLink.listed linked = [⟨"in/a.json"⟩] := by
  decide

theorem files_linked :
    (Loading.files linked (overLink.listed linked)).result = .ok [⟨"a", ["A"], ⟨"in/a.json"⟩⟩] := by
  have hfile : (Loading.file linked ⟨"in/a.json"⟩).result = _ :=
    file_enumText (by decide) (by decide)
  rw [listed_linked]
  exact Loading.files_ok_iff.mpr ⟨_, .cons hfile .nil, rfl⟩

theorem run_overLink : (overLink.run linked).result = .ok (.written ⟨"in/./t"⟩ 1) := by
  have hnames : checkNames overLink.duplicates [⟨"a", ["A"], ⟨"in/a.json"⟩⟩] = .ok [] := by rfl
  have hrun := (run_eq_written files_linked (by simp) hnames (replaceFile_linked _)).1
  rw [outputPath_overLink] at hrun
  exact hrun

/-- The run into `in/./t` replaces the link in `in` and leaves the file alone that it led to. -/
theorem run_written_frame_overLink :
    (overLink.run linked).result = .ok (.written ⟨"in/./t"⟩ 1) ∧
      linked.entryAt? (linkedPlace ++ [targetName]) = some (.link ⟨"../keep"⟩) ∧
      linked.DiffersOnlyAt (linkedPlace ++ [targetName]) (overLink.run linked).fileSystem ∧
      (overLink.run linked).fileSystem.entryAt? [⟨[107, 101, 101, 112], by decide⟩] =
        some (.file "old".toUTF8) := by
  have hlink : linked.entryAt? (linkedPlace ++ [targetName]) = some (.link ⟨"../keep"⟩) := rfl
  have hthere : linked.resolve overLink.outputPath = .ok [⟨[107, 101, 101, 112], by decide⟩] := by
    decide
  have hkeep : linked.entryAt? [⟨[107, 101, 101, 112], by decide⟩] = some (.file "old".toUTF8) := rfl
  obtain ⟨location, name, _, _, _, hlocation, hname, -, -, hdiffers, -, -, -, htarget⟩ :=
    run_written_frame overLink linked run_overLink
  cases hlocation.symm.trans resolve_overLink
  obtain rfl : name = targetName := Subtype.ext (hname.trans targetName_eq.symm)
  exact ⟨run_overLink, hlink, hdiffers, (htarget _ hlink _ _ hthere hkeep).2⟩

end SchemaEnums.Generator
