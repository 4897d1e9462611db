import SchemaEnums.Generator
import SchemaEnums.Proofs.FileSystem.Replacing
import SchemaEnums.Proofs.Loading.Printed

/-!
# A run that writes nothing changes nothing

A run touches the file system in its last step only, and that step either puts the output or undoes
what it has done.  So there are two kinds of runs: those that have written, and those behind which
the file system is the one before them.

* `write_error`: a refused name, a directory without place for a temporary file and a refused rename
  are all undone.
* `run_of_loading_error`, `run_of_loading_nil`, `run_of_loading_ok`: how a run ends, by what the
  loading of the files gives.
* `run_cases`: what the three ends of a run leave behind.
* `run_unwritten_fileSystem`: **behind a run that fails or finds nothing, the file system is the old
  one.**
-/

namespace SchemaEnums.Generator

variable {generator : Generator} {fs : FileSystem}

/-- What is written either fails and is undone, or is reported as written. -/
theorem write_cases (generator : Generator) (fs : FileSystem) (files : Nat)
    (declarations : List Declaration) :
    (∃ error, (generator.write fs files declarations).result = .error error ∧
        (generator.write fs files declarations).fileSystem = fs) ∨
      ((generator.write fs files declarations).result =
          .ok (.written generator.outputPath declarations.length) ∧
        fs.replaceFile generator.outputDir generator.outputPath
            (Declaration.render declarations).toUTF8 =
          (.ok (), (generator.write fs files declarations).fileSystem)) := by
  unfold write
  simp only
  split
  · exact Or.inl ⟨_, rfl, rfl⟩
  · split
    · rename_i error after hreplace
      exact Or.inl ⟨_, rfl, FileSystem.replaceFile_error hreplace⟩
    · rename_i after hreplace
      exact Or.inr ⟨rfl, hreplace⟩

section

variable {error : FileError} {declarations : List Declaration}

theorem run_of_loading_error
    (h : (Loading.files fs (Discovery.scan fs generator.inputDir generator.discovery).files).result =
      .error error) :
    (generator.run fs).result = .error (.file error) ∧ (generator.run fs).fileSystem = fs := by
  simp only [run, h, and_self]

theorem run_of_loading_nil
    (h : (Loading.files fs (Discovery.scan fs generator.inputDir generator.discovery).files).result =
      .ok []) :
    (generator.run fs).result = .ok .noEnums ∧ (generator.run fs).fileSystem = fs := by
  simp only [run, h, and_self]

theorem run_of_loading_ok (generator : Generator)
    (h : (Loading.files fs (Discovery.scan fs generator.inputDir generator.discovery).files).result =
      .ok declarations) (hne : declarations ≠ []) :
    let files := (Discovery.scan fs generator.inputDir generator.discovery).files
    (generator.run fs).result = (generator.write fs files.length declarations).result ∧
      (generator.run fs).fileSystem =
        (generator.write fs files.length declarations).fileSystem := by
  intro files
  cases declarations with
  | nil => exact absurd rfl hne
  | cons first rest => simp only [run, h, files, and_self]

end

/-- The three ends of a run: a file that fails, no declaration at all, and the writing of some. -/
theorem run_cases (generator : Generator) (fs : FileSystem) :
    let files := (Discovery.scan fs generator.inputDir generator.discovery).files
    let run := generator.run fs
    (∃ error, (Loading.files fs files).result = .error error ∧ run.result = .error (.file error) ∧
        run.fileSystem = fs) ∨
      ((Loading.files fs files).result = .ok [] ∧ run.result = .ok .noEnums ∧
        run.fileSystem = fs) ∨
      ∃ declarations, (Loading.files fs files).result = .ok declarations ∧ declarations ≠ [] ∧
        run.result = (generator.write fs files.length declarations).result ∧
        run.fileSystem = (generator.write fs files.length declarations).fileSystem := by
  intro files run
  cases hloading : (Loading.files fs files).result with
  | error error => exact Or.inl ⟨error, rfl, run_of_loading_error hloading⟩
  | ok declarations =>
    by_cases hnil : declarations = []
    · subst hnil
      exact Or.inr (Or.inl ⟨rfl, run_of_loading_nil hloading⟩)
    · exact Or.inr (Or.inr ⟨declarations, rfl, hnil, run_of_loading_ok generator hloading hnil⟩)

/-- **Behind a run that fails or finds nothing, the file system is the old one**: every entry, every
byte, and nothing besides. -/
theorem run_unwritten_fileSystem (generator : Generator) (fs : FileSystem)
    (h : (∃ error, (generator.run fs).result = .error error) ∨
      (generator.run fs).result = .ok .noEnums) :
    (generator.run fs).fileSystem = fs := by
  rcases run_cases generator fs with ⟨_, -, -, hkept⟩ | ⟨-, -, hkept⟩ |
    ⟨declarations, -, -, hresult, hfs⟩
  · exact hkept
  · exact hkept
  rcases write_cases generator fs _ declarations with ⟨_, -, hkept⟩ | ⟨hwritten, -⟩
  · rw [hfs, hkept]
  · -- a run that has written neither fails nor finds nothing
    rw [hresult, hwritten] at h
    rcases h with ⟨error, h⟩ | h <;> cases h

/-! ### A rename that is refused -/

/-- The name `in`. -/
def inName : Name := ⟨[105, 110], by decide⟩

/-- The name `out`. -/
def outName : Name := ⟨[111, 117, 116], by decide⟩

/-- The name `a.json`. -/
def jsonName : Name := ⟨[97, 46, 106, 115, 111, 110], by decide⟩

/-- The name `t`, of an output. -/
def outputName : PlainName := ⟨"t", by decide⟩

/-- The name `t`, of the output's entry. -/
def targetName : Name := ⟨[116], by decide⟩

/-- The name `.enumgen000000.tmp`. -/
def firstTemporary : Name :=
  ⟨[46, 101, 110, 117, 109, 103, 101, 110, 48, 48, 48, 48, 48, 48, 46, 116, 109, 112], by decide⟩

/-- A schema that is an enum. -/
def enumSchema : Json := .object [("enum", .array [.string "A"])]

/-- The text of this schema. -/
def enumText : String := r#"{"enum":["A"]}"#

theorem print_enumSchema : enumSchema.print = enumText := by
  decide

theorem file_enumText {path : Path} (hread : fs.readText path = .ok enumText)
    (hname : path.schemaName = "a") : (Loading.file fs path).result = .ok [⟨"a", ["A"], path⟩] := by
  have hfloat : enumSchema.FloatFree := by simp [enumSchema]
  have hkeys : enumSchema.DistinctKeys := by simp [enumSchema]
  have hdepth : enumSchema.depth ≤ 127 := by decide
  rw [← print_enumSchema] at hread
  obtain ⟨-, hresult⟩ := Loading.file_of_print hfloat hkeys hdepth hread
  rw [hresult, hname]
  with_unfolding_all rfl

/-- An input with one enum, and an output directory in which another directory has the name of the
output. -/
def occupied : FileSystem where
  entries :=
    [(inName, .directory [(jsonName, .file enumText.toUTF8)]),
      (outName, .directory [(targetName, .directory [])])]
  ordered := ⟨⟨trivial, by simp, trivial⟩, by decide, ⟨trivial, by simp, trivial⟩, by simp, trivial⟩
  workingDir := []

/-- The generator from `in` into `out/t`. -/
def intoOut : Generator := ⟨⟨"in"⟩, ⟨"out"⟩, outputName, .failOpen, .warn⟩

theorem temporaryPlace_occupied :
    occupied.temporaryPlace ⟨"out"⟩ = .ok ([outName], firstTemporary) := by
  decide

theorem replaceFile_occupied (content : ByteArray) :
    (occupied.replaceFile ⟨"out"⟩ ⟨"out/t"⟩ content).1 = .error (.notRenamed .isADirectory) := by
  have hrename : (occupied.put [outName] firstTemporary (.file content)
      (Entry.ordered_file content)).rename [outName] firstTemporary ⟨"out/t"⟩ =
        .error .isADirectory := by rfl
  have hhere : Path.orHere ⟨"out"⟩ = ⟨"out"⟩ := by decide
  simp only [FileSystem.replaceFile, hhere, temporaryPlace_occupied, FileSystem.put_put, hrename]

theorem files_occupied :
    (Loading.files occupied (Discovery.scan occupied ⟨"in"⟩ .failOpen).files).result =
      .ok [⟨"a", ["A"], ⟨"in/a.json"⟩⟩] := by
  have hscan : (Discovery.scan occupied ⟨"in"⟩ .failOpen).files = [⟨"in/a.json"⟩] := by
    decide
  have hfile : (Loading.file occupied ⟨"in/a.json"⟩).result = _ :=
    file_enumText (by decide) (by decide)
  rw [hscan]
  exact Loading.files_ok_iff.mpr ⟨_, .cons hfile .nil, rfl⟩

theorem run_occupied (duplicates : DuplicatePolicy) :
    (run { intoOut with duplicates } occupied).result =
      .error (.output ⟨"out/t"⟩ (.notRenamed .isADirectory)) := by
  have hnames : checkNames duplicates [⟨"a", ["A"], ⟨"in/a.json"⟩⟩] = .ok [] := by
    cases duplicates <;> rfl
  have hpath : outputPath { intoOut with duplicates } = ⟨"out/t"⟩ := by
    cases duplicates <;> decide
  obtain ⟨hresult, -⟩ :=
    run_of_loading_ok { intoOut with duplicates } files_occupied (by simp)
  rw [hresult, write, hpath]
  simp only [hnames]
  split
  · rename_i refusal after hreplace
    cases (congrArg Prod.fst hreplace).symm.trans (replaceFile_occupied _)
    rfl
  · rename_i after hreplace
    cases (congrArg Prod.fst hreplace).symm.trans (replaceFile_occupied _)

/-- The temporary file has been made when the rename is refused, and is gone afterwards. -/
theorem run_unwritten_fileSystem_occupied :
    (∃ error, (intoOut.run occupied).result = .error error) ∧
      (∃ after, occupied.temporaryPlace intoOut.outputDir = .ok after) ∧
      (intoOut.run occupied).fileSystem = occupied := by
  have hfails : ∃ error, (intoOut.run occupied).result = .error error := ⟨_, run_occupied .warn⟩
  exact ⟨hfails, ⟨_, temporaryPlace_occupied⟩,
    run_unwritten_fileSystem intoOut occupied (Or.inl hfails)⟩

end SchemaEnums.Generator
