import SchemaEnums.Generator
import SchemaEnums.Proofs.FileSystem.Replacing
import SchemaEnums.Proofs.Path.Components

/-!
# The place of the output

The file name of a generator is one component of a path, and nothing that a path could make more of:
an absolute path would take the place of the output directory, and `..` would leave it.  So the
output is an entry of the output directory, however the directory is written.

* `Path.under`: how a path is written that is seen from a directory.
* `SingleComponent`: a text that is one component of a path.
* `PlainName.plain_iff`: **the plain names are these texts**, but for those with a backslash.
* `create_childPath`: **a generator can be made with these names and no others, and its output is a
  child of the output directory.**
-/

namespace SchemaEnums

/-- How a path is written that is seen from a directory: an absolute path stands for itself. -/
def Path.under (dir path : Path) : Path :=
  if path.text.toList.head? = some '/' then path
  else ⟨.ofList (joinWith '/' dir.text.toList path.text.toList)⟩

/-- A text is one component of a path: it is its own and only component, neither of the two that
every directory has, and there is no slash behind it. -/
def SingleComponent (text : String) : Prop :=
  (⟨text⟩ : Path).components = [.named text.toList] ∧ text ∉ [".", ".."] ∧
    text.toList.getLast? ≠ some '/'

open Path.Component (Normal)

variable {name text : String} {dir : Path}

theorem Path.under_eq_join (h : Normal name.toList) : dir.under ⟨name⟩ = dir.join name := by
  have hhead : name.toList.head? ≠ some '/' :=
    fun hslash => h.slash_notMem (List.mem_of_mem_head? hslash)
  rw [under, if_neg hhead, join]

theorem singleComponent_iff : SingleComponent text ↔ Normal text.toList := by
  constructor
  · rintro ⟨hcomponents, -, -⟩
    exact Path.components_eq_named_iff.mp hcomponents
  · intro h
    refine ⟨Path.components_eq_named_iff.mpr h, ?_, ?_⟩
    · intro hspecial
      rw [List.mem_cons, List.mem_singleton] at hspecial
      rcases hspecial with rfl | rfl
      · exact h.ne_dot rfl
      · exact h.ne_dots rfl
    · exact fun hslash => h.slash_notMem (List.mem_of_getLast? hslash)

/-- **The plain names are the texts that are one component of a path**, but for those with a
backslash. -/
theorem PlainName.plain_iff : Plain text ↔ SingleComponent text ∧ '\\' ∉ text.toList := by
  rw [singleComponent_iff, Plain]
  constructor
  · rintro ⟨hspecial, hslash, hbackslash⟩
    simp only [List.mem_cons, List.not_mem_nil, or_false, not_or] at hspecial
    obtain ⟨hempty, hdot, hdots⟩ := hspecial
    refine ⟨⟨?_, ?_, ?_, hslash⟩, hbackslash⟩
    · exact fun h => hempty (String.toList_inj.mp h)
    · exact fun h => hdot (String.toList_inj.mp h)
    · exact fun h => hdots (String.toList_inj.mp h)
  · rintro ⟨h, hbackslash⟩
    refine ⟨?_, h.slash_notMem, hbackslash⟩
    simp only [List.mem_cons, List.not_mem_nil, or_false, not_or]
    refine ⟨?_, ?_, ?_⟩
    · rintro rfl
      exact h.ne_nil rfl
    · rintro rfl
      exact h.ne_dot rfl
    · rintro rfl
      exact h.ne_dots rfl

namespace Generator

variable {inputDir outputDir : Path} {fileName : Option String}
  {discovery : Option DiscoveryPolicy} {duplicates : Option DuplicatePolicy}
  {generator : Generator}

theorem create_eq_ok_iff :
    create inputDir outputDir fileName discovery duplicates = .ok generator ↔
      ∃ h : PlainName.Plain (fileName.getD defaultFileName),
        generator = ⟨inputDir, outputDir, ⟨_, h⟩, discovery.getD .default,
          duplicates.getD .default⟩ := by
  by_cases hplain : PlainName.Plain (fileName.getD defaultFileName)
  · simp [create, PlainName.ofText?, hplain, eq_comm]
  · simp [create, PlainName.ofText?, hplain]

/-- The output's path leads to the directory that the output directory's path leads to, and names an
entry of it. -/
theorem resolveParent_join {fs : FileSystem} {location : Location} {entries : Entries}
    (hname : Normal name.toList) (hresolve : fs.resolve dir.orHere = .ok location)
    (hat : fs.entriesAt? location = some entries) (hrefusal : (dir.join name).refusal? = none) :
    fs.resolveParent (dir.join name) = .ok (location, Utf8.encode name.toList) := by
  obtain ⟨hfollow, hlast⟩ := FileSystem.follow_parent_of_resolve hname.slash_notMem hresolve
  exact FileSystem.resolveParent_eq_ok hrefusal hfollow hat hlast

/-- **A generator can be made exactly if the file name is one component of a path, without a
backslash.  Its output is then a child of the output directory**, however this one is written: the
output's path has the components of the output directory and the file name as its last one, and if
it can be followed at all, it leads to the entry of this name in the directory that the output
directory's path leads to. -/
theorem create_childPath (inputDir outputDir : Path) (fileName : Option String)
    (discovery : Option DiscoveryPolicy) (duplicates : Option DuplicatePolicy) :
    let name := fileName.getD defaultFileName
    ((∃ generator, create inputDir outputDir fileName discovery duplicates = .ok generator) ↔
        SingleComponent name ∧ '\\' ∉ name.toList) ∧
      ∀ generator, create inputDir outputDir fileName discovery duplicates = .ok generator →
        generator.outputPath = outputDir.under ⟨name⟩ ∧
          generator.outputPath.components = outputDir.components ++ [.named name.toList] ∧
          generator.outputPath.fileName? = some name ∧
          ∀ (fs : FileSystem) (location : Location) (entries : Entries),
            fs.resolve outputDir.orHere = .ok location → fs.entriesAt? location = some entries →
              generator.outputPath.refusal? = none →
                fs.resolveParent generator.outputPath =
                  .ok (location, Utf8.encode name.toList) := by
  intro name
  refine ⟨?_, ?_⟩
  · rw [← PlainName.plain_iff]
    constructor
    · rintro ⟨generator, hcreate⟩
      exact (create_eq_ok_iff.mp hcreate).1
    · intro hplain
      exact ⟨_, create_eq_ok_iff.mpr ⟨hplain, rfl⟩⟩
  · intro generator hcreate
    obtain ⟨hplain, rfl⟩ := create_eq_ok_iff.mp hcreate
    have hname : Normal name.toList := singleComponent_iff.mp (PlainName.plain_iff.mp hplain).1
    have hcomponents := Path.components_join outputDir hname
    refine ⟨(Path.under_eq_join hname).symm, hcomponents, ?_, ?_⟩
    · show (outputDir.join name).fileName? = some name
      rw [Path.fileName?, hcomponents, List.getLast?_concat]
      exact congrArg some String.ofList_toList
    · intro fs location entries hresolve hat hrefusal
      exact resolveParent_join hname hresolve hat hrefusal

/-- A file system with nothing but the empty directory `gen`. -/
def onlyGen : FileSystem where
  entries := [(⟨[103, 101, 110], by decide⟩, .directory [])]
  ordered := ⟨trivial, by simp, trivial⟩
  workingDir := []

/-- A name may look like a dot component, and the directory may be written with dots. -/
theorem create_childPath_dotted :
    SingleComponent "..ts" ∧
      ∃ generator, create ⟨"in"⟩ ⟨"../gen/./"⟩ (some "..ts") none none = .ok generator ∧
        generator.outputPath.components =
          [.parent, .named ['g', 'e', 'n'], .named ['.', '.', 't', 's']] ∧
        onlyGen.resolveParent generator.outputPath =
          .ok ([⟨[103, 101, 110], by decide⟩], [46, 46, 116, 115]) := by
  obtain ⟨hiff, hchild⟩ := create_childPath ⟨"in"⟩ ⟨"../gen/./"⟩ (some "..ts") none none
  have hcreate : create ⟨"in"⟩ ⟨"../gen/./"⟩ (some "..ts") none none =
      .ok ⟨⟨"in"⟩, ⟨"../gen/./"⟩, ⟨"..ts", by decide⟩, .default, .default⟩ := by
    rfl
  obtain ⟨-, hcomponents, -, hparent⟩ := hchild _ hcreate
  refine ⟨(hiff.mp ⟨_, hcreate⟩).1, _, hcreate, ?_, ?_⟩
  · rw [hcomponents]
    decide
  · exact hparent onlyGen _ [] (by decide) rfl (by decide)

end Generator

end SchemaEnums
