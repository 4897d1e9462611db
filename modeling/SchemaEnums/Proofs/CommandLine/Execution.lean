import SchemaEnums.CommandLine.Program
import SchemaEnums.Proofs.CommandLine.Arrangement

/-!
# The program and the library

A program that is asked for a run makes the generator that its arguments describe, and leaves what
the generator's run leaves.  Its exit code only says whether there has been an outcome.

* `Shows`: what the program shows of making a generator and running it.
* `execute_shows`: **the program shows what the library does** with the values it has parsed.
* `execute_spell`: **every arrangement of a command line shows what the library does** with the
  values in it.
-/

namespace SchemaEnums

theorem Generator.create_eq_error_iff {inputDir outputDir : Path} {fileName : Option String}
    {discovery : Option DiscoveryPolicy} {duplicates : Option DuplicatePolicy} {name : String} :
    create inputDir outputDir fileName discovery duplicates = .error name ↔
      name = fileName.getD defaultFileName ∧ ¬ PlainName.Plain name := by
  by_cases hplain : PlainName.Plain (fileName.getD defaultFileName)
  · simp only [create, PlainName.ofText?, dif_pos hplain]
    constructor
    · intro h
      cases h
    · rintro ⟨rfl, hnot⟩
      exact absurd hplain hnot
  · simp only [create, PlainName.ofText?, dif_neg hplain, Except.error.injEq]
    constructor
    · rintro rfl
      exact ⟨rfl, hplain⟩
    · rintro ⟨rfl, -⟩
      rfl

namespace CommandLine

/-- What the program shows of making a generator and running it on a file system: the file system
behind the run, which is the one before if there is no generator, and in the exit code whether there
has been an outcome. -/
structure Shows (response : Response) (after : FileSystem) (created : Except String Generator)
    (fs : FileSystem) : Prop where
  refused : ∀ name, created = .error name → after = fs ∧ response.exitCode = 1
  fileSystem : ∀ generator, created = .ok generator → after = (generator.run fs).fileSystem
  outcome : ∀ generator outcome, created = .ok generator →
    (generator.run fs).result = .ok outcome → response.exitCode = 0
  failure : ∀ generator error, created = .ok generator →
    (generator.run fs).result = .error error → response.exitCode = 1

/-- **The program shows what the library does** with the values it has parsed. -/
theorem execute_shows {texts : List String} {arguments : Arguments}
    (h : parse texts = .ok (.run arguments)) (logSetting : Option String) (fs : FileSystem) :
    Shows (execute texts logSetting fs).1 (execute texts logSetting fs).2
      (Generator.create arguments.inputDir arguments.outputDir (some arguments.fileName)
        (some arguments.discovery) (some arguments.duplicates)) fs := by
  cases hcreated : Generator.create arguments.inputDir arguments.outputDir
      (some arguments.fileName) (some arguments.discovery) (some arguments.duplicates) with
  | error name =>
    simp only [execute, h, runWith, hcreated, runWith.finish]
    exact ⟨fun _ _ => ⟨rfl, rfl⟩, nofun, nofun, nofun⟩
  | ok generator =>
    simp only [execute, h, runWith, hcreated, runWith.finish]
    refine ⟨nofun, ?_, ?_, ?_⟩
    · rintro _ ⟨⟩
      rfl
    · rintro _ outcome ⟨⟩ hresult
      rw [hresult]
      rfl
    · rintro _ error ⟨⟩ hresult
      rw [hresult]
      rfl

variable {pieces : List Piece} {input output : String} {fileName : Option String}
  {discovery : Option DiscoveryPolicy} {duplicates : Option DuplicatePolicy}

/-- **Every arrangement of a command line shows what the library does** with the values in it: they
are parsed as they are, and where one is missing the program and the library have the same
default. -/
theorem execute_spell (h : Arranges pieces input output fileName discovery duplicates)
    (hinput : Undashed input) (houtput : Undashed output)
    (hfileName : ∀ name ∈ fileName, Undashed name) :
    parse (pieces.flatMap Piece.spell) =
        .ok (.run ⟨⟨input⟩, ⟨output⟩, fileName.getD defaultFileName, discovery.getD .default,
          duplicates.getD .default⟩) ∧
      ((∃ name, Generator.create ⟨input⟩ ⟨output⟩ fileName discovery duplicates = .error name) ↔
        ¬ PlainName.Plain (fileName.getD defaultFileName)) ∧
      ∀ (logSetting : Option String) (fs : FileSystem),
        Shows (execute (pieces.flatMap Piece.spell) logSetting fs).1
          (execute (pieces.flatMap Piece.spell) logSetting fs).2
          (Generator.create ⟨input⟩ ⟨output⟩ fileName discovery duplicates) fs := by
  have hparse := parse_spell h hinput houtput hfileName
  refine ⟨hparse, ?_, fun logSetting fs => execute_shows hparse logSetting fs⟩
  simp only [Generator.create_eq_error_iff, exists_eq_left]

/-- A command line with the directories apart from each other, and options of both spellings. -/
def mixed : List Piece :=
  [.option (.duplicates .deny) false, .directory "schemas", .option (.fileName "q.ts") true,
    .directory "out"]

/-- The mixed command line runs the generator with the default for the policy that it leaves out. -/
theorem execute_spell_mixed :
    mixed.flatMap Piece.spell =
        ["--duplicates", "deny", "schemas", "--file-name=q.ts", "out"] ∧
      parse (mixed.flatMap Piece.spell) =
        .ok (.run ⟨⟨"schemas"⟩, ⟨"out"⟩, "q.ts", .failOpen, .deny⟩) ∧
      ∀ (logSetting : Option String) (fs : FileSystem),
        (execute (mixed.flatMap Piece.spell) logSetting fs).2 =
          (Generator.run ⟨⟨"schemas"⟩, ⟨"out"⟩, ⟨"q.ts", by decide⟩, .failOpen, .deny⟩
            fs).fileSystem := by
  have harranged : Arranges mixed "schemas" "out" (some "q.ts") none (some .deny) :=
    ⟨rfl, rfl, rfl, rfl⟩
  obtain ⟨hparse, -, hshows⟩ :=
    execute_spell harranged (by decide) (by decide) (by decide)
  refine ⟨by decide, hparse, ?_⟩
  intro logSetting fs
  exact (hshows logSetting fs).fileSystem _ rfl

end CommandLine

end SchemaEnums
