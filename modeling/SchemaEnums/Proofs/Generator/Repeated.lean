import SchemaEnums.Proofs.Discovery.OneEntry
import SchemaEnums.Proofs.Generator.Frame
import SchemaEnums.Proofs.Loading.Failures

/-!
# Running again

A run that has written changes one entry.  If this entry is no part of the input, a second run finds
the same files with the same texts and replaces the output by itself.

* `ApartFromInput`: an entry that no part of the generator's input comes to.
* `listed_again`, `files_again`: behind a run that has written the same files are listed, with the
  same declarations in them.
* `run_again`: **a second run gives the same result and changes nothing.**
-/

namespace SchemaEnums.Generator

variable {generator : Generator} {fs : FileSystem} {path : Path} {enums : Nat} {location : Location}
  {name : Name}

/-- The entry at a place is no part of what the generator reads: it is not listed, and neither the
input directory nor the output directory nor any file that is listed leads through it. -/
structure ApartFromInput (generator : Generator) (fs : FileSystem) (place : Location) : Prop where
  not_listed : ¬ Discovery.ListsPlace fs generator.inputDir generator.discovery place
  input : ¬ fs.PathPasses generator.inputDir place
  output : ¬ fs.PathPasses generator.outputDir.orHere place
  files : ∀ file ∈ generator.listed fs, ¬ fs.PathPasses file place

theorem exists_warnings_of_run_written {declarations : List Declaration}
    (h : (generator.run fs).result = .ok (.written path enums))
    (hfiles : (Loading.files fs (generator.listed fs)).result = .ok declarations) :
    ∃ warnings, checkNames generator.duplicates declarations = .ok warnings := by
  obtain ⟨_, hfound, -⟩ | ⟨-, hresult, -⟩ | ⟨found, hfound, -, hresult, -⟩ := run_cases generator fs
  · cases hfound.symm.trans hfiles
  · cases hresult.symm.trans h
  · cases hfound.symm.trans hfiles
    apply exists_warnings_of_write
    intro names hnames
    cases (hresult.trans hnames).symm.trans h

/-- **Behind a run that has written the same files are listed.** -/
theorem listed_again (h : (generator.run fs).result = .ok (.written path enums))
    (hresolve : fs.resolve generator.outputDir.orHere = .ok location)
    (hname : name.val = Utf8.encode generator.fileName.val.toList)
    (hlists : ¬ Discovery.ListsPlace (generator.run fs).fileSystem generator.inputDir
      generator.discovery (location ++ [name]))
    (hpasses : ¬ (generator.run fs).fileSystem.PathPasses generator.inputDir (location ++ [name])) :
    generator.listed (generator.run fs).fileSystem = generator.listed fs := by
  obtain ⟨hdiffers, content, hfile⟩ := differsOnlyAt_run_written h hresolve hname
  obtain ⟨-, declarations, hfiles, hne, -⟩ := run_written_cases h
  -- without a listed file there would be nothing to write
  obtain ⟨first, hfirst⟩ : ∃ first, first ∈ generator.listed fs := by
    refine List.exists_mem_of_ne_nil _ fun hnil => hne ?_
    rw [hnil] at hfiles
    cases hfiles
    rfl
  exact Discovery.scan_files_of_differsOnlyAt hdiffers hfile hfirst hpasses hlists

/-- **Behind a run that has written the listed files are what they were.** -/
theorem files_again (h : (generator.run fs).result = .ok (.written path enums))
    (hresolve : fs.resolve generator.outputDir.orHere = .ok location)
    (hname : name.val = Utf8.encode generator.fileName.val.toList)
    (hapart : generator.ApartFromInput (generator.run fs).fileSystem (location ++ [name])) :
    Loading.files (generator.run fs).fileSystem (generator.listed (generator.run fs).fileSystem) =
      Loading.files fs (generator.listed fs) := by
  have hlisted := listed_again h hresolve hname hapart.not_listed hapart.input
  obtain ⟨hdiffers, -⟩ := differsOnlyAt_run_written h hresolve hname
  obtain ⟨-, declarations, hfiles, -⟩ := run_written_cases h
  have hgood := Loading.exists_ok_iff.mp ⟨declarations, hfiles⟩
  rw [hlisted]
  apply Loading.files_congr
  intro file hfile
  obtain ⟨document, ⟨text, hread, -⟩, -⟩ := hgood file hfile
  have hpasses := hapart.files file (hlisted ▸ hfile)
  rw [hread, FileSystem.readText_of_differsOnlyAt hdiffers hread hpasses]

/-- **A second run gives the same result and changes nothing**, if the output is no part of the
input.  The directory has room for the second temporary file because it had for the first one; only
an output with the name of a temporary file can take the last room, as it stays. -/
theorem run_again (generator : Generator) (fs : FileSystem)
    (h : (generator.run fs).result = .ok (.written path enums))
    (hresolve : fs.resolve generator.outputDir.orHere = .ok location)
    (hname : name.val = Utf8.encode generator.fileName.val.toList)
    (hapart : generator.ApartFromInput (generator.run fs).fileSystem (location ++ [name]))
    (hroom : ∀ n, name.val = Output.temporaryName n →
      (generator.run fs).fileSystem.HasRoom location) :
    let after := (generator.run fs).fileSystem
    (generator.run after).result = .ok (.written path enums) ∧
      (generator.run after).fileSystem = after := by
  intro after
  obtain ⟨rfl, declarations, hfiles, hne, rfl, hreplace⟩ := run_written_cases h
  obtain ⟨warnings, hnames⟩ := exists_warnings_of_run_written h hfiles
  obtain ⟨hdiffers, -⟩ := differsOnlyAt_run_written h hresolve hname
  have hfiles' : (Loading.files after (generator.listed after)).result = .ok declarations := by
    rw [files_again h hresolve hname hapart, hfiles]
  have hresolve' : after.resolve generator.outputDir.orHere = .ok location :=
    FileSystem.resolve_of_differsOnlyAt hdiffers hresolve hapart.output
  have hreplace' : after.replaceFile generator.outputDir generator.outputPath
      (Declaration.render declarations).toUTF8 = (.ok (), after) :=
    FileSystem.replaceFile_again generator.fileName.property.2.1 hreplace hresolve hresolve'
      fun n hn => hroom n (hname.trans hn)
  exact run_eq_written hfiles' hne hnames hreplace'

/-! ### Over a link once more -/

/-- A path below `in` passes what has taken the place of the link only inside of `in`. -/
theorem passes_linked {after : FileSystem} {rest : List (List UInt8)} {text : String}
    (hdiffers : linked.DiffersOnlyAt (linkedPlace ++ [targetName]) after)
    (hpasses : after.PathPasses ⟨text⟩ (linkedPlace ++ [targetName]))
    (hsegments : (Path.mk text).segments = [105, 110] :: rest)
    (hrelative : (Path.mk text).bytes.head? ≠ some 47) :
    after.Passes (linkedPlace ++ [targetName]) maxLinks linkedPlace rest := by
  obtain ⟨-, hpass⟩ := hpasses
  have hin : linked.entryAt? linkedPlace = some (.directory linkedEntries) :=
    FileSystem.entriesAt?_eq_some_iff.mp entriesAt?_linkedPlace
  obtain ⟨later, hlater⟩ := hdiffers.exists_directory hin
  rw [hsegments, Path.start, if_neg hrelative, hdiffers.workingDir] at hpass
  exact hpass.of_name rfl (by decide) hlater (by simp)

/-- What has taken the place of the link does not have the name of a schema file, and no path but its
own leads to it. -/
theorem apartFromInput_overLink :
    overLink.ApartFromInput (overLink.run linked).fileSystem (linkedPlace ++ [targetName]) := by
  obtain ⟨hdiffers, -⟩ := differsOnlyAt_run_written run_overLink resolve_overLink targetName_eq
  have hlists : ¬ Discovery.ListsPlace (overLink.run linked).fileSystem overLink.inputDir
      overLink.discovery (linkedPlace ++ [targetName]) :=
    Discovery.not_listsPlace_of_name (by decide)
  have hinput : ¬ (overLink.run linked).fileSystem.PathPasses overLink.inputDir
      (linkedPlace ++ [targetName]) := by
    intro hpasses
    exact FileSystem.not_passes_nil
      (passes_linked hdiffers hpasses (by decide) (by decide))
  refine ⟨hlists, hinput, ?_, ?_⟩
  · intro hpasses
    have hhere : overLink.outputDir.orHere = ⟨"in/."⟩ := by decide
    rw [hhere] at hpasses
    have hsegments : (Path.mk "in/.").segments = [[105, 110], [46]] := by decide
    have hdot := passes_linked hdiffers hpasses hsegments (by decide)
    exact FileSystem.not_passes_nil (hdot.of_idle (Or.inr rfl))
  · intro file hfile hpasses
    rw [listed_again run_overLink resolve_overLink targetName_eq hlists hinput, listed_linked,
      List.mem_singleton] at hfile
    subst hfile
    have hsegments : (Path.mk "in/a.json").segments = [[105, 110], jsonName.val] := by
      decide
    have hjson := passes_linked hdiffers hpasses hsegments (by decide)
    have hentry : linked.entryAt? (linkedPlace ++ [jsonName]) =
        some (.file enumText.toUTF8) := rfl
    obtain ⟨found, hfound, halike⟩ := hdiffers.exists_alike (by decide) hentry
    cases halike
    exact FileSystem.not_passes_nil (hjson.of_name rfl (by decide) hfound (by simp))

/-- The second run into `in/./t` replaces the file that has taken the place of the link. -/
theorem run_again_overLink :
    (overLink.run linked).result = .ok (.written ⟨"in/./t"⟩ 1) ∧
      overLink.ApartFromInput (overLink.run linked).fileSystem (linkedPlace ++ [targetName]) ∧
      (overLink.run (overLink.run linked).fileSystem).result = .ok (.written ⟨"in/./t"⟩ 1) ∧
      (overLink.run (overLink.run linked).fileSystem).fileSystem =
        (overLink.run linked).fileSystem := by
  have hroom : (overLink.run linked).fileSystem.HasRoom linkedPlace := by
    obtain ⟨location, before, name, declarations, hlocation, hat, hname, -, -, hafter⟩ :=
      run_written_put run_overLink
    cases hlocation.symm.trans resolve_overLink
    cases hat.symm.trans entriesAt?_linkedPlace
    obtain rfl : name = targetName := Subtype.ext (hname.trans targetName_eq.symm)
    have hlength (entry : Entry) : (Entries.put targetName entry linkedEntries).length = 2 := rfl
    rw [hafter]
    refine FileSystem.hasRoom_of_length_lt (FileSystem.entriesAt?_put_self hat _ _) ?_
    rw [hlength]
    decide
  exact ⟨run_overLink, apartFromInput_overLink,
    run_again overLink linked run_overLink resolve_overLink targetName_eq apartFromInput_overLink
      fun _ _ => hroom⟩

end SchemaEnums.Generator
