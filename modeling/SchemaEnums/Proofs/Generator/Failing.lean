import SchemaEnums.Proofs.Duplicate
import SchemaEnums.Proofs.Generator.Written
import SchemaEnums.Proofs.Loading.Failures

/-!
# Which failure a run reports

The failures of files come first: as long as a file fails, nothing that is decided later is looked
at.  Repeated names come second and the output last.

* `run_firstFailure`: **the first file that fails decides what a run reports.**
-/

namespace SchemaEnums.Generator

open Loading

variable {generator : Generator} {fs : FileSystem}

theorem run_error_cases {failure : RunError} (h : (generator.run fs).result = .error failure)
    (hfile : ∀ error, failure ≠ .file error) :
    ∃ declarations, (Loading.files fs (generator.listed fs)).result = .ok declarations ∧
      (generator.write fs (generator.listed fs).length declarations).result = .error failure := by
  obtain ⟨error, -, hresult, -⟩ | ⟨-, hresult, -⟩ | ⟨declarations, hfiles, -, hresult, -⟩ :=
    run_cases generator fs
  · cases hresult.symm.trans h
    exact absurd rfl (hfile error)
  · cases hresult.symm.trans h
  · exact ⟨declarations, hfiles, hresult.symm.trans h⟩

theorem nodup_of_checkNames_deny {declarations : List Declaration} {warnings : List Event}
    (h : checkNames .deny declarations = .ok warnings) : (declarations.map (·.name)).Nodup := by
  rw [← Duplicate.ofDeclarations_eq_nil_iff]
  unfold checkNames at h
  dsimp only at h
  split at h
  · assumption
  · cases h

/-- **The first file that fails decides what a run reports.**  The report names this file, and no
other run reports anything else that lists the same files up to this one, with the same texts:
whatever the later files hold, wherever the output goes and whatever the policy on names is.  Only if
no file fails can the names be refused or the output fail, and the output only if the names are
distinct or need not be. -/
theorem run_firstFailure (generator : Generator) (fs : FileSystem) :
    let files := generator.listed fs
    let result := (generator.run fs).result
    ((∃ file ∈ files, ¬ Good fs file) →
        ∃ before path after error, files = before ++ path :: after ∧
          (∀ file ∈ before, Good fs file) ∧ FailsWith fs path error ∧
          result = .error (.file error) ∧
          (∀ shown ∈ [error.report.outermost, error.report.message, error.report.paragraph],
            path.text.toList <:+: shown.toList) ∧
          ∀ (other : Generator) (later : FileSystem) (behind : List Path),
            other.listed later = before ++ path :: behind →
            (∀ file ∈ before ++ [path], later.readText file = fs.readText file) →
            (other.run later).result = result) ∧
      (∀ names, result = .error (.duplicates names) → ∀ file ∈ files, Good fs file) ∧
      ∀ path refusal, result = .error (.output path refusal) →
        (∀ file ∈ files, Good fs file) ∧
          ∃ declarations, Enumerates Site.Before (DeclaredAt fs files) declarations ∧
            (generator.duplicates ≠ .deny ∨ (declarations.map (·.name)).Nodup) := by
  intro files result
  refine ⟨?_, ?_, ?_⟩
  · intro hbad
    obtain ⟨before, path, after, error, hsplit, hbefore, hfails⟩ := exists_first_failure hbad
    have hresult : result = .error (.file error) :=
      (run_of_loading_error
        (files_eq_error_iff.mpr ⟨before, path, after, hsplit, hbefore, hfails⟩)).1
    refine ⟨before, path, after, error, hsplit, hbefore, hfails, hresult, hfails.mentions_path, ?_⟩
    intro other later behind hlisted hsame
    have hlater := files_eq_error_of_same_texts hbefore hfails hsame behind
    rw [← hlisted] at hlater
    exact (run_of_loading_error hlater).1.trans hresult.symm
  · intro names hnames
    obtain ⟨declarations, hfiles, -⟩ := run_error_cases hnames (by simp)
    exact exists_ok_iff.mp ⟨declarations, hfiles⟩
  · intro path refusal houtput
    obtain ⟨declarations, hfiles, hwrite⟩ := run_error_cases houtput (by simp)
    refine ⟨exists_ok_iff.mp ⟨declarations, hfiles⟩, declarations, enumerates_files hfiles, ?_⟩
    obtain ⟨warnings, hnames⟩ := exists_warnings_of_write (by rw [hwrite]; nofun)
    by_cases hdeny : generator.duplicates = .deny
    · rw [hdeny] at hnames
      exact Or.inr (nodup_of_checkNames_deny hnames)
    · exact Or.inl hdeny

/-! ### One run for each kind of failure -/

/-- An input of two files, the first of which breaks off; the second one holds the given text. -/
def brokenOff (second : String) : FileSystem where
  entries :=
    [(inName, .directory
        [(jsonName, .file "[".toUTF8),
          (⟨[98, 46, 106, 115, 111, 110], by decide⟩, .file second.toUTF8)])]
  ordered := ⟨⟨trivial, by simp [jsonName]; decide, trivial, by simp, trivial⟩, by simp, trivial⟩
  workingDir := []

/-- A generator from `in`. -/
def fromIn (outputDir : Path) (duplicates : DuplicatePolicy) : Generator :=
  ⟨⟨"in"⟩, outputDir, outputName, .failOpen, duplicates⟩

theorem readText_brokenOff (second : String) :
    (brokenOff second).readText ⟨"in/a.json"⟩ = .ok "[" := by
  rfl

theorem not_good_brokenOff (second : String) : ¬ Good (brokenOff second) ⟨"in/a.json"⟩ := by
  rintro ⟨document, ⟨text, hread, hparse⟩, -⟩
  cases (readText_brokenOff second).symm.trans hread
  have hnone : (Json.parse "[").toOption.isNone := by decide
  rw [hparse] at hnone
  cases hnone

/-- An input of two files, one below the other, that give the same name to their enum. -/
def twiceNamed : FileSystem where
  entries :=
    [(inName, .directory
        [(jsonName, .file enumText.toUTF8),
          (⟨[115], by decide⟩, .directory [(jsonName, .file enumText.toUTF8)])])]
  ordered :=
    ⟨⟨trivial, by simp [jsonName]; decide, ⟨trivial, by simp, trivial⟩, by simp, trivial⟩, by simp,
      trivial⟩
  workingDir := []

theorem duplicates_twiceNamed :
    ∃ names, ((fromIn ⟨"out"⟩ .deny).run twiceNamed).result = .error (.duplicates names) := by
  have hlisted : (fromIn ⟨"out"⟩ .deny).listed twiceNamed = [⟨"in/a.json"⟩, ⟨"in/s/a.json"⟩] := by
    decide
  have hfirst : (Loading.file twiceNamed ⟨"in/a.json"⟩).result = _ :=
    file_enumText (by decide) (by decide)
  have hsecond : (Loading.file twiceNamed ⟨"in/s/a.json"⟩).result = _ :=
    file_enumText (by decide) (by decide)
  have hall : (Loading.files twiceNamed ((fromIn ⟨"out"⟩ .deny).listed twiceNamed)).result =
      .ok [⟨"a", ["A"], ⟨"in/a.json"⟩⟩, ⟨"a", ["A"], ⟨"in/s/a.json"⟩⟩] := by
    rw [hlisted]
    exact Loading.files_ok_iff.mpr ⟨_, .cons hfirst (.cons hsecond .nil), rfl⟩
  obtain ⟨hresult, -⟩ := run_of_loading_ok (fromIn ⟨"out"⟩ .deny) hall (by simp)
  refine ⟨[⟨"a", [⟨"in/a.json"⟩, ⟨"in/s/a.json"⟩]⟩], ?_⟩
  rw [hresult, write]
  rfl

/-- The file that breaks off is reported whatever the file behind it holds and whether the output
directory exists; once all files are good, a name that is repeated is reported, or an output that is
in the way. -/
theorem run_firstFailure_brokenOff :
    ((∃ file ∈ (fromIn ⟨"out"⟩ .warn).listed (brokenOff "null"), ¬ Good (brokenOff "null") file) ∧
        ∃ error, ((fromIn ⟨"out"⟩ .warn).run (brokenOff "null")).result = .error (.file error) ∧
          FailsWith (brokenOff "null") ⟨"in/a.json"⟩ error ∧
          ((fromIn ⟨""⟩ .deny).run (brokenOff "[")).result = .error (.file error)) ∧
      ((∃ names, ((fromIn ⟨"out"⟩ .deny).run twiceNamed).result = .error (.duplicates names)) ∧
        ∀ file ∈ (fromIn ⟨"out"⟩ .deny).listed twiceNamed, Good twiceNamed file) ∧
      ((fromIn ⟨"out"⟩ .deny).run occupied).result =
          .error (.output ⟨"out/t"⟩ (.notRenamed .isADirectory)) ∧
        ∀ file ∈ (fromIn ⟨"out"⟩ .deny).listed occupied, Good occupied file := by
  have hlisted : (fromIn ⟨"out"⟩ .warn).listed (brokenOff "null") =
      [⟨"in/a.json"⟩, ⟨"in/b.json"⟩] := by decide
  have hlisted' : (fromIn ⟨""⟩ .deny).listed (brokenOff "[") =
      [⟨"in/a.json"⟩, ⟨"in/b.json"⟩] := by decide
  have hbad : ∃ file ∈ (fromIn ⟨"out"⟩ .warn).listed (brokenOff "null"),
      ¬ Good (brokenOff "null") file :=
    ⟨⟨"in/a.json"⟩, by simp [hlisted], not_good_brokenOff "null"⟩
  obtain ⟨before, path, after, error, hsplit, hbefore, hfails, hresult, -, hother⟩ :=
    (run_firstFailure (fromIn ⟨"out"⟩ .warn) (brokenOff "null")).1 hbad
  rw [hlisted] at hsplit
  -- the first listed file is bad already, so nothing stands before the failure
  cases before with
  | cons first before =>
    obtain ⟨rfl, -⟩ := List.cons.inj hsplit
    exact absurd (hbefore _ List.mem_cons_self) (not_good_brokenOff "null")
  | nil =>
    obtain ⟨rfl, -⟩ := List.cons.inj hsplit
    have hsame : ∀ file ∈ [(⟨"in/a.json"⟩ : Path)],
        (brokenOff "[").readText file = (brokenOff "null").readText file := by
      intro file hfile
      cases List.mem_singleton.mp hfile
      rw [readText_brokenOff, readText_brokenOff]
    have hlater := hother (fromIn ⟨""⟩ .deny) (brokenOff "[") [⟨"in/b.json"⟩] hlisted' hsame
    obtain ⟨names, hnames⟩ := duplicates_twiceNamed
    have hrepeated := (run_firstFailure (fromIn ⟨"out"⟩ .deny) twiceNamed).2.1 names hnames
    have hrefused := run_occupied .deny
    have houtput := (run_firstFailure (fromIn ⟨"out"⟩ .deny) occupied).2.2 _ _ hrefused
    exact ⟨⟨hbad, error, hresult, hfails, hlater.trans hresult⟩, ⟨⟨names, hnames⟩, hrepeated⟩,
      hrefused, houtput.1⟩

end SchemaEnums.Generator
