import SchemaEnums.Proofs.Generator.Unchanged
import SchemaEnums.Proofs.Loading.Files

/-!
# What a run writes

A run gives every enum that can be reached in the listed files its declaration, and writes these one
behind the other.  It finds nothing exactly if there is none, all files being good.

* `Declaration.render_eq_join`: the text of declarations is that of each of them, in a row.
* `run_noEnums_iff`: **when a run finds nothing.**
* `run_written`: **what stands in the output after a run that has written.**
* `run_eq_written`: the conditions under which a run writes.
-/

namespace SchemaEnums

theorem Declaration.render_eq_join (declarations : List Declaration) :
    render declarations = String.join (declarations.map fun d => renderEnum d.name d.members) := by
  rw [← String.toList_inj, String.toList_join, render, String.toList_ofList, List.flatMap_map]
  apply List.flatMap_congr
  intro declaration _
  rw [renderEnum, String.toList_ofList, chars]

namespace Generator

variable {generator : Generator} {fs : FileSystem} {path : Path} {enums : Nat}

/-- The schema files that a run lists. -/
def listed (generator : Generator) (fs : FileSystem) : List Path :=
  (Discovery.scan fs generator.inputDir generator.discovery).files

/-- The entry of the output after a run: the one with the file name, in the directory that the
output directory led to before. -/
def inOutput? (generator : Generator) (before after : FileSystem) : Option Entry :=
  match before.resolve generator.outputDir.orHere,
      Name.ofBytes? (Utf8.encode generator.fileName.val.toList) with
  | .ok location, some name => after.entryAt? (location ++ [name])
  | _, _ => none

theorem inOutput?_of_replaceFile {content : ByteArray} {after : FileSystem}
    (h : fs.replaceFile generator.outputDir generator.outputPath content = (.ok (), after)) :
    generator.inOutput? fs after = some (.file content) := by
  obtain ⟨location, entries, last, hresolve, hat, hlast, -, rfl⟩ :=
    FileSystem.replaceFile_ok generator.fileName.property.2.1 h
  have hput := FileSystem.entriesAt?_put_self hat last (Entry.ordered_file content)
  rw [inOutput?, hresolve, Name.ofBytes?_eq_some_iff.mpr hlast.symm]
  dsimp only
  rw [FileSystem.entryAt?_append_singleton, hput, Option.bind_some, Entries.lookup_put_self]

theorem run_noEnums_iff (generator : Generator) (fs : FileSystem) :
    (generator.run fs).result = .ok .noEnums ↔
      (∀ path ∈ generator.listed fs, Good fs path) ∧
        ∀ site declaration, ¬ DeclaredAt fs (generator.listed fs) site declaration := by
  rcases run_cases generator fs with ⟨error, hfiles, hresult, -⟩ | ⟨hfiles, hresult, -⟩ |
    ⟨declarations, hfiles, hne, hresult, -⟩
  · rw [hresult]
    apply iff_of_false nofun
    rintro ⟨hgood, -⟩
    obtain ⟨declarations, hok⟩ := Loading.exists_ok_iff.mpr hgood
    cases hfiles.symm.trans hok
  · have hnone := (Loading.enumerates_files hfiles).eq_nil_iff.mp rfl
    exact iff_of_true hresult ⟨Loading.exists_ok_iff.mp ⟨_, hfiles⟩, hnone⟩
  · refine iff_of_false (fun hnone => ?_) fun ⟨_, hnone⟩ => ?_
    · rw [hresult] at hnone
      rcases write_cases generator fs (generator.listed fs).length declarations with
        ⟨error, herror, -⟩ | ⟨hwritten, -⟩
      · cases herror.symm.trans hnone
      · cases hwritten.symm.trans hnone
    · exact hne ((Loading.enumerates_files hfiles).eq_nil_iff.mpr hnone)

/-- The output is only tried if the names have been let through: without them there is no other end
than their refusal. -/
theorem exists_warnings_of_write {files : Nat} {declarations : List Declaration}
    (h : ∀ names, (generator.write fs files declarations).result ≠ .error (.duplicates names)) :
    ∃ warnings, checkNames generator.duplicates declarations = .ok warnings := by
  cases hnames : checkNames generator.duplicates declarations with
  | ok warnings => exact ⟨warnings, rfl⟩
  | error failure =>
    have hresult : (generator.write fs files declarations).result = .error failure := by
      rw [write, hnames]
    unfold checkNames at hnames
    split at hnames
    · cases hnames
    · cases hnames
    · split at hnames
      · cases hnames
      · cases hnames
        exact absurd hresult (h _)

/-- What is known of a run that has written: what has been loaded, and that the output has been
replaced by its text. -/
theorem run_written_cases (h : (generator.run fs).result = .ok (.written path enums)) :
    path = generator.outputPath ∧
      ∃ declarations, (Loading.files fs (generator.listed fs)).result = .ok declarations ∧
        declarations ≠ [] ∧ enums = declarations.length ∧
        fs.replaceFile generator.outputDir generator.outputPath
            (Declaration.render declarations).toUTF8 =
          (.ok (), (generator.run fs).fileSystem) := by
  rcases run_cases generator fs with ⟨error, -, hresult, -⟩ | ⟨-, hresult, -⟩ |
    ⟨declarations, hfiles, hne, hresult, hafter⟩
  · cases hresult.symm.trans h
  · cases hresult.symm.trans h
  rcases write_cases generator fs (generator.listed fs).length declarations with
    ⟨error, herror, -⟩ | ⟨hwritten, hreplace⟩
  · cases (hresult.trans herror).symm.trans h
  · cases (hresult.trans hwritten).symm.trans h
    exact ⟨rfl, declarations, hfiles, hne, rfl, by rw [hafter]; exact hreplace⟩

theorem run_eq_written {declarations : List Declaration} {warnings : List Event}
    {after : FileSystem}
    (hfiles : (Loading.files fs (generator.listed fs)).result = .ok declarations)
    (hne : declarations ≠ [])
    (hnames : checkNames generator.duplicates declarations = .ok warnings)
    (hreplace : fs.replaceFile generator.outputDir generator.outputPath
      (Declaration.render declarations).toUTF8 = (.ok (), after)) :
    (generator.run fs).result = .ok (.written generator.outputPath declarations.length) ∧
      (generator.run fs).fileSystem = after := by
  obtain ⟨hresult, hafter⟩ := run_of_loading_ok generator hfiles hne
  rw [hresult, hafter, write]
  simp only [hnames, hreplace, and_self]

/-- **What a run finds and writes.**  It finds nothing exactly if all listed files are good and none
of them declares anything.  If it has written, all of them are good, the count is that of the
declarations in them, and the output is their texts in a row, in the order of their sites. -/
theorem run_written (generator : Generator) (fs : FileSystem) :
    let files := generator.listed fs
    let run := generator.run fs
    (run.result = .ok .noEnums ↔
        (∀ file ∈ files, Good fs file) ∧
          ∀ site declaration, ¬ DeclaredAt fs files site declaration) ∧
      ∀ path enums, run.result = .ok (.written path enums) →
        (∀ file ∈ files, Good fs file) ∧ path = generator.outputPath ∧ 1 ≤ enums ∧
          ∃ declarations, Enumerates Site.Before (DeclaredAt fs files) declarations ∧
            enums = declarations.length ∧
            generator.inOutput? fs run.fileSystem =
              some (.file (String.join
                (declarations.map fun d => Declaration.renderEnum d.name d.members)).toUTF8) := by
  intro files run
  refine ⟨run_noEnums_iff generator fs, ?_⟩
  intro path enums hrun
  obtain ⟨hpath, declarations, hfiles, hne, rfl, hreplace⟩ := run_written_cases hrun
  refine ⟨Loading.exists_ok_iff.mp ⟨_, hfiles⟩, hpath, List.length_pos_iff.mpr hne, declarations,
    Loading.enumerates_files hfiles, rfl, ?_⟩
  rw [← Declaration.render_eq_join]
  exact inOutput?_of_replaceFile hreplace

/-! ### A run that writes -/

/-- The generator from `in` into `out/u`. -/
def besideOccupied : Generator := ⟨⟨"in"⟩, ⟨"out"⟩, ⟨"u", by decide⟩, .failOpen, .warn⟩

theorem replaceFile_beside (content : ByteArray) :
    occupied.replaceFile besideOccupied.outputDir besideOccupied.outputPath content =
      (.ok (), occupied.put [outName] ⟨[117], by decide⟩ (.file content)
        (Entry.ordered_file content)) := by
  have hrefusal : (besideOccupied.outputDir.join besideOccupied.fileName.val).refusal? = none := by
    decide
  have hname : [117] = Utf8.encode besideOccupied.fileName.val.toList := by decide
  have hat : occupied.entriesAt? [outName] = some [(targetName, .directory [])] := rfl
  exact FileSystem.replaceFile_eq_ok besideOccupied.fileName.property.2.1 hrefusal
    temporaryPlace_occupied hname hat (by decide)

theorem run_besideOccupied :
    (besideOccupied.run occupied).result = .ok (.written ⟨"out/u"⟩ 1) := by
  have hnames : checkNames besideOccupied.duplicates [⟨"a", ["A"], ⟨"in/a.json"⟩⟩] = .ok [] := by rfl
  have hrun := (run_eq_written files_occupied (by simp) hnames (replaceFile_beside _)).1
  have hpath : besideOccupied.outputPath = ⟨"out/u"⟩ := by decide
  rw [hpath] at hrun
  exact hrun

/-- The run into `out/u` finds a good file and declares its enum. -/
theorem run_written_besideOccupied :
    (besideOccupied.run occupied).result = .ok (.written ⟨"out/u"⟩ 1) ∧
      (∀ file ∈ besideOccupied.listed occupied, Good occupied file) ∧
      ∃ text, besideOccupied.inOutput? occupied (besideOccupied.run occupied).fileSystem =
        some (.file text) := by
  obtain ⟨hgood, -, -, declarations, -, -, hentry⟩ :=
    (run_written besideOccupied occupied).2 _ _ run_besideOccupied
  exact ⟨run_besideOccupied, hgood, _, hentry⟩

end Generator

end SchemaEnums
