import SchemaEnums.Proofs.Declaration.Headers
import SchemaEnums.Proofs.Generator.Frame

/-!
# The number of enums and the text

A run reports how many enums it has written.  The text shows as many headers if no name holds a line
feed, whatever the members are.  A name with a line feed can stand in the text as more headers than
one, or as none.

* `run_written_headers`: **what looks like a header behind a run that has written.**
* `run_forging`: a property whose name makes one enum look like two.
-/

namespace SchemaEnums.Generator

open Declaration

variable {path : Path} {enums : Nat}

/-- **What looks like a header behind a run that has written** comes from the headers of the
declarations, and there are as many of these lines as enums have been reported, if no name holds a
line feed. -/
theorem run_written_headers (generator : Generator) (fs : FileSystem)
    (h : (generator.run fs).result = .ok (.written path enums)) :
    ∃ (declarations : List Declaration) (text : String),
      Enumerates Site.Before (DeclaredAt fs (generator.listed fs)) declarations ∧
      enums = declarations.length ∧
      generator.inOutput? fs (generator.run fs).fileSystem = some (.file text.toUTF8) ∧
      headers text.toList =
        declarations.flatMap (fun declaration => headers (headerChars declaration.name)) ∧
      ((∀ declaration ∈ declarations, '\n' ∉ declaration.name.toList) →
        (headers text.toList).length = enums) := by
  obtain ⟨-, declarations, hfiles, -, rfl, hreplace⟩ := run_written_cases h
  refine ⟨declarations, render declarations, Loading.enumerates_files hfiles, rfl,
    inOutput?_of_replaceFile hreplace, headers_render declarations, ?_⟩
  intro hnames
  have hone : ∀ declaration ∈ declarations, headers (headerChars declaration.name) =
      [headerChars declaration.name] :=
    fun declaration hmem => headers_headerChars (hnames declaration hmem)
  rw [headers_render, List.flatMap_congr hone, ← List.map_eq_flatMap, List.length_map]

/-- The run over a link shows the header of the enum that it reports. -/
theorem run_written_headers_overLink :
    (overLink.run linked).result = .ok (.written ⟨"in/./t"⟩ 1) ∧
      ∃ text, overLink.inOutput? linked (overLink.run linked).fileSystem =
          some (.file (String.toUTF8 text)) ∧
        (headers text.toList).length = 1 := by
  obtain ⟨declarations, text, hdeclared, -, hentry, -, hcount⟩ :=
    run_written_headers overLink linked run_overLink
  have hsame := hdeclared.unique Site.Before.asymm (Loading.enumerates_files files_linked)
  refine ⟨run_overLink, text, hentry, hcount ?_⟩
  rw [hsame]
  decide

/-! ### A name that looks like a header -/

/-- The name of an enum that goes on in a line of its own. -/
def forgingName : String := "a ".push '{' ++ "\nexport enum b"

/-- A schema with one enum, which has this name. -/
def forgingSchema : Json :=
  .object [("type", .string "object"),
    ("properties", .object [(forgingName, .object [("enum", .array [.string "A"])])])]

/-- An input with this schema and an empty output directory. -/
def forging : FileSystem where
  entries :=
    [(inName, .directory [(jsonName, .file forgingSchema.print.toUTF8)]),
      (outName, .directory [])]
  ordered := ⟨⟨trivial, by simp, trivial⟩, by decide, trivial, by simp, trivial⟩
  workingDir := []

/-- The declaration of the enum. -/
def forgedDeclaration : Declaration := ⟨forgingName, ["A"], ⟨"in/a.json"⟩⟩

theorem file_forging : (Loading.file forging ⟨"in/a.json"⟩).result = .ok [forgedDeclaration] := by
  have hfloat : forgingSchema.FloatFree := by simp [forgingSchema]
  have hkeys : forgingSchema.DistinctKeys := by simp [forgingSchema]
  have hdepth : forgingSchema.depth ≤ 127 := by decide
  have hread : forging.readText ⟨"in/a.json"⟩ = .ok forgingSchema.print := by decide
  obtain ⟨-, hresult⟩ := Loading.file_of_print hfloat hkeys hdepth hread
  rw [hresult]
  with_unfolding_all rfl

theorem files_forging :
    (Loading.files forging (intoOut.listed forging)).result = .ok [forgedDeclaration] := by
  have hlisted : intoOut.listed forging = [⟨"in/a.json"⟩] := by decide
  rw [hlisted]
  exact Loading.files_ok_iff.mpr ⟨_, .cons file_forging .nil, rfl⟩

theorem replaceFile_forging (content : ByteArray) :
    forging.replaceFile intoOut.outputDir intoOut.outputPath content =
      (.ok (), forging.put [outName] targetName (.file content) (Entry.ordered_file content)) := by
  have hrefusal : (intoOut.outputDir.join intoOut.fileName.val).refusal? = none := by
    decide
  have hplace : forging.temporaryPlace intoOut.outputDir.orHere =
      .ok ([outName], firstTemporary) := by decide
  have hat : forging.entriesAt? [outName] = some [] := rfl
  have hname : targetName.val = Utf8.encode intoOut.fileName.val.toList := by decide
  have hfree : ∀ old ∈ ([] : Entries).lookup targetName, ¬ old.isDirectory := by simp
  exact FileSystem.replaceFile_eq_ok intoOut.fileName.property.2.1 hrefusal hplace hname hat hfree

/-- **A name can add a header**: the run reports one enum, and the output shows two headers. -/
theorem run_forging :
    (intoOut.run forging).result = .ok (.written ⟨"out/t"⟩ 1) ∧
      ∃ text, intoOut.inOutput? forging (intoOut.run forging).fileSystem =
          some (.file (String.toUTF8 text)) ∧
        headers text.toList =
          ["export enum a ".toList ++ ['{'], "export enum b ".toList ++ ['{']] := by
  have hnames : checkNames intoOut.duplicates [forgedDeclaration] = .ok [] := by rfl
  have hreplace := replaceFile_forging (render [forgedDeclaration]).toUTF8
  obtain ⟨hresult, hafter⟩ := run_eq_written files_forging (by simp) hnames hreplace
  have hpath : intoOut.outputPath = ⟨"out/t"⟩ := by decide
  rw [hpath] at hresult
  rw [hafter]
  refine ⟨hresult, render [forgedDeclaration], inOutput?_of_replaceFile hreplace, ?_⟩
  decide

end SchemaEnums.Generator
