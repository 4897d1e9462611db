import SchemaEnums.Proofs.Generator.Failing

/-!
# The three policies on names

The policy on names is asked between the loading of the files and the writing of the output, so three
runs that differ in nothing else go the same way up to there.  What is behind the question does not
depend on the policy either.

* `run_eq_of_error`, `run_eq_of_nil`, `run_eq_of_declarations`: a run as a whole, by what has been
  loaded.
* `putOutput`: the writing without the question, and `write_eq_of_ok`: the answer adds warnings in
  front of it, or `write_eq_of_error`: stands in its place.
* `NamesPass`: nothing stands against the names.
* `run_withPolicy`: **how the runs under the three policies are related.**
-/

namespace SchemaEnums

/-- Whether an event is shown to someone who does not ask for details. -/
def Event.isNotable (event : Event) : Bool :=
  event.level.rank ≤ Level.info.rank

/-! ### What is never a warning about names -/

theorem Discovery.repeatedName_notMem_collect {policy : DiscoveryPolicy} {collected : Discovery}
    {sightings : List Sighting} {duplicate : Duplicate}
    (h : .repeatedName duplicate ∉ collected.events) :
    .repeatedName duplicate ∉ (collect policy collected sightings).events := by
  induction sightings generalizing collected with
  | nil => exact h
  | cons sighting rest ih =>
    cases sighting with
    | schema path => exact ih (by simp [h])
    | notUtf8 shown => exact ih (by simp [h])
    | unlisted error =>
      cases policy with
      | failOpen => simp [collect, h]
      | keepGoing => exact ih (by simp [h])

theorem Loading.repeatedName_notMem_files (fs : FileSystem) (paths : List Path)
    (duplicate : Duplicate) : .repeatedName duplicate ∉ (files fs paths).events := by
  induction paths with
  | nil => exact List.not_mem_nil
  | cons path rest ih =>
    have hfile : .repeatedName duplicate ∉ (file fs path).events := by
      unfold file
      split
      · exact List.not_mem_nil
      · unfold Loading.ofDocument
        dsimp only
        split <;> simp
    show .repeatedName duplicate ∉ (file fs path).events ++ (files fs rest).events
    simp [hfile, ih]

namespace Generator

variable {generator : Generator} {fs : FileSystem} {declarations : List Declaration}

/-! ### A run as a whole -/

/-- The generator with another policy on names. -/
def withPolicy (generator : Generator) (policy : DuplicatePolicy) : Generator :=
  { generator with duplicates := policy }

/-- The first event of a run. -/
def opening (generator : Generator) : Event :=
  .started generator.inputDir generator.outputPath generator.discovery generator.duplicates

/-- The events of a run between the first one and the question about the names. -/
def loadingEvents (generator : Generator) (fs : FileSystem) : List Event :=
  scanEvents (Discovery.scan fs generator.inputDir generator.discovery) ++
    (Loading.files fs (generator.listed fs)).events

/-- The writing of declarations whose names have been let through without a warning. -/
def putOutput (generator : Generator) (fs : FileSystem) (files : Nat)
    (declarations : List Declaration) : Run :=
  generator.withPolicy .allow |>.write fs files declarations

theorem run_eq_of_error {error : FileError}
    (h : (Loading.files fs (generator.listed fs)).result = .error error) :
    generator.run fs =
      ⟨.error (.file error), generator.opening :: generator.loadingEvents fs, fs⟩ := by
  unfold listed at h
  simp only [run, h]
  rfl

theorem run_eq_of_nil (h : (Loading.files fs (generator.listed fs)).result = .ok []) :
    generator.run fs =
      ⟨.ok .noEnums,
        generator.opening ::
          (generator.loadingEvents fs ++ [.noEnums (generator.listed fs).length]), fs⟩ := by
  unfold listed at h
  simp only [run, h]
  rfl

theorem run_eq_of_declarations
    (h : (Loading.files fs (generator.listed fs)).result = .ok declarations)
    (hne : declarations ≠ []) :
    let written := generator.write fs (generator.listed fs).length declarations
    generator.run fs =
      { written with
        events := generator.opening :: (generator.loadingEvents fs ++ written.events) } := by
  obtain ⟨first, rest, rfl⟩ := List.exists_cons_of_ne_nil hne
  unfold listed at h
  simp only [run, h]
  rfl

/-! ### The answers to the question -/

theorem write_eq_of_ok {files : Nat} {warnings : List Event}
    (h : checkNames generator.duplicates declarations = .ok warnings) :
    let put := generator.putOutput fs files declarations
    generator.write fs files declarations = { put with events := warnings ++ put.events } := by
  have hallow : checkNames (generator.withPolicy .allow).duplicates declarations = .ok [] := rfl
  have hpath : (generator.withPolicy .allow).outputPath = generator.outputPath := rfl
  have hdir : (generator.withPolicy .allow).outputDir = generator.outputDir := rfl
  simp only [putOutput, write, h, hallow, hpath, hdir]
  cases fs.replaceFile generator.outputDir generator.outputPath
      (Declaration.render declarations).toUTF8 with
  | mk result after =>
    cases result with
    | error error => simp
    | ok done => simp

theorem write_eq_of_error {files : Nat} {error : RunError}
    (h : checkNames generator.duplicates declarations = .error error) :
    generator.write fs files declarations = ⟨.error error, [], fs⟩ := by
  simp only [write, h]

theorem checkNames_deny_of_nodup (h : (declarations.map (·.name)).Nodup) :
    checkNames .deny declarations = .ok [] := by
  simp only [checkNames, Duplicate.ofDeclarations_eq_nil_iff.mpr h]

theorem checkNames_deny_of_not_nodup (h : ¬ (declarations.map (·.name)).Nodup) :
    checkNames .deny declarations =
      .error (.duplicates (Duplicate.ofDeclarations declarations)) := by
  have hne : Duplicate.ofDeclarations declarations ≠ [] :=
    mt Duplicate.ofDeclarations_eq_nil_iff.mp h
  obtain ⟨first, rest, hcons⟩ := List.exists_cons_of_ne_nil hne
  simp only [checkNames, hcons]

/-! ### Allowing and warning -/

theorem repeatedName_notMem_loadingEvents (generator : Generator) (fs : FileSystem)
    (duplicate : Duplicate) : .repeatedName duplicate ∉ generator.loadingEvents fs := by
  have hscan : .repeatedName duplicate ∉
      (Discovery.scan fs generator.inputDir generator.discovery).events :=
    Discovery.repeatedName_notMem_collect List.not_mem_nil
  have hfiles := Loading.repeatedName_notMem_files fs (generator.listed fs) duplicate
  simp only [loadingEvents, scanEvents, List.mem_append, hscan, hfiles, or_false, false_or]
  split <;> simp

theorem repeatedName_notMem_putOutput (generator : Generator) (fs : FileSystem) (files : Nat)
    (declarations : List Declaration) (duplicate : Duplicate) :
    .repeatedName duplicate ∉ (generator.putOutput fs files declarations).events := by
  have hallow : checkNames (generator.withPolicy .allow).duplicates declarations = .ok [] := rfl
  simp only [putOutput, write, hallow]
  split <;> simp

theorem repeatedName_notMem_run (h : generator.duplicates ≠ .warn) (duplicate : Duplicate) :
    .repeatedName duplicate ∉ (generator.run fs).events := by
  have hloading := repeatedName_notMem_loadingEvents generator fs duplicate
  cases hfiles : (Loading.files fs (generator.listed fs)).result with
  | error error =>
    rw [run_eq_of_error hfiles]
    simp [opening, hloading]
  | ok declarations =>
    by_cases hnil : declarations = []
    · subst hnil
      rw [run_eq_of_nil hfiles]
      simp [opening, hloading]
    rw [run_eq_of_declarations hfiles hnil]
    cases hnames : checkNames generator.duplicates declarations with
    | error error =>
      rw [write_eq_of_error hnames]
      simp [opening, hloading]
    | ok warnings =>
      have hput := repeatedName_notMem_putOutput generator fs (generator.listed fs).length
        declarations duplicate
      have hwarnings : warnings = [] := by
        unfold checkNames at hnames
        split at hnames
        · exact (Except.ok.inj hnames).symm
        · exact absurd (by assumption) h
        · split at hnames
          · exact (Except.ok.inj hnames).symm
          · cases hnames
      rw [write_eq_of_ok hnames, hwarnings]
      simp [opening, hloading, hput]

theorem checkNames_nil (policy : DuplicatePolicy) : checkNames policy [] = .ok [] := by
  cases policy <;> rfl

/-- As long as a policy lets the names through, a run under it is one that allows, with another first
event and with the warnings between the loading and the writing. -/
theorem run_of_warnings {policy : DuplicatePolicy} {warnings : List Event}
    (herror : ∀ error, (Loading.files fs (generator.listed fs)).result = .error error →
      warnings = [])
    (hok : ∀ declarations, (Loading.files fs (generator.listed fs)).result = .ok declarations →
      checkNames policy declarations = .ok warnings) :
    let allow := (generator.withPolicy .allow).run fs
    let run := (generator.withPolicy policy).run fs
    run.result = allow.result ∧ run.fileSystem = allow.fileSystem ∧
      ∃ front behind,
        allow.events = (generator.withPolicy .allow).opening :: (front ++ behind) ∧
        run.events = (generator.withPolicy policy).opening :: (front ++ warnings ++ behind) := by
  intro allow run
  cases hfiles : (Loading.files fs (generator.listed fs)).result with
  | error error =>
    have hallow : allow = _ := run_eq_of_error hfiles
    have hrun : run = _ := run_eq_of_error hfiles
    rw [hallow, hrun, herror error hfiles]
    refine ⟨rfl, rfl, generator.loadingEvents fs, [], ?_, ?_⟩
    · rw [List.append_nil]
      rfl
    · rw [List.append_nil, List.append_nil]
      rfl
  | ok declarations =>
    have hnames : checkNames (generator.withPolicy policy).duplicates declarations = .ok warnings :=
      hok declarations hfiles
    by_cases hnil : declarations = []
    · subst hnil
      have hallow : allow = _ := run_eq_of_nil hfiles
      have hrun : run = _ := run_eq_of_nil hfiles
      rw [hallow, hrun, ← Except.ok.inj ((checkNames_nil policy).symm.trans hnames)]
      refine ⟨rfl, rfl, generator.loadingEvents fs, _, rfl, ?_⟩
      rw [List.append_nil]
      rfl
    · have hallow : allow = _ := run_eq_of_declarations hfiles hnil
      have hrun : run = _ := run_eq_of_declarations hfiles hnil
      rw [write_eq_of_ok hnames] at hrun
      rw [hallow, hrun]
      refine ⟨rfl, rfl, generator.loadingEvents fs, _, rfl, ?_⟩
      rw [List.append_assoc]
      rfl

theorem run_warn (generator : Generator) (fs : FileSystem) :
    let allow := (generator.withPolicy .allow).run fs
    let warn := (generator.withPolicy .warn).run fs
    warn.result = allow.result ∧ warn.fileSystem = allow.fileSystem ∧
      ∃ front repeated behind,
        allow.events = (generator.withPolicy .allow).opening :: (front ++ behind) ∧
        warn.events = (generator.withPolicy .warn).opening ::
          (front ++ repeated.map .repeatedName ++ behind) ∧
        (∀ error, (Loading.files fs (generator.listed fs)).result = .error error →
          repeated = []) ∧
        ∀ declarations, (Loading.files fs (generator.listed fs)).result = .ok declarations →
          repeated = Duplicate.ofDeclarations declarations := by
  intro allow warn
  obtain ⟨repeated, herror, hok⟩ : ∃ repeated : List Duplicate,
      (∀ error, (Loading.files fs (generator.listed fs)).result = .error error → repeated = []) ∧
      ∀ declarations, (Loading.files fs (generator.listed fs)).result = .ok declarations →
        repeated = Duplicate.ofDeclarations declarations := by
    cases (Loading.files fs (generator.listed fs)).result with
    | error error => exact ⟨[], fun _ _ => rfl, nofun⟩
    | ok declarations =>
      refine ⟨Duplicate.ofDeclarations declarations, nofun, ?_⟩
      rintro _ ⟨⟩
      rfl
  have hwarnings : ∀ declarations,
      (Loading.files fs (generator.listed fs)).result = .ok declarations →
        checkNames .warn declarations = .ok (repeated.map .repeatedName) := by
    intro declarations hfiles
    rw [hok declarations hfiles]
    rfl
  obtain ⟨hresult, hfs, front, behind, hallow, hwarn⟩ :=
    run_of_warnings (fun error hfiles => by rw [herror error hfiles]; rfl) hwarnings
  exact ⟨hresult, hfs, front, repeated, behind, hallow, hwarn, herror, hok⟩

/-! ### Denying -/

/-- Nothing stands against the names: a file fails before they are looked at, no enum is declared, or
all declarations have different names. -/
def NamesPass (generator : Generator) (fs : FileSystem) : Prop :=
  (∃ file ∈ generator.listed fs, ¬ Good fs file) ∨
    (∀ site declaration, ¬ DeclaredAt fs (generator.listed fs) site declaration) ∨
    ∃ declarations, Enumerates Site.Before (DeclaredAt fs (generator.listed fs)) declarations ∧
      (declarations.map (·.name)).Nodup

theorem namesPass_iff :
    generator.NamesPass fs ↔
      ∀ declarations, (Loading.files fs (generator.listed fs)).result = .ok declarations →
        (declarations.map (·.name)).Nodup := by
  constructor
  · intro h declarations hfiles
    have hdeclared := Loading.enumerates_files hfiles
    rcases h with ⟨file, hfile, hbad⟩ | hnone | ⟨others, hothers, hdistinct⟩
    · exact absurd (Loading.exists_ok_iff.mp ⟨declarations, hfiles⟩ file hfile) hbad
    · rw [hdeclared.eq_nil_iff.mpr hnone]
      exact List.nodup_nil
    · rwa [hdeclared.unique Site.Before.asymm hothers]
  · intro h
    cases hfiles : (Loading.files fs (generator.listed fs)).result with
    | error error =>
      refine Or.inl (by_contra fun hnone => ?_)
      have hgood : ∀ file ∈ generator.listed fs, Good fs file :=
        fun file hfile => by_contra fun hbad => hnone ⟨file, hfile, hbad⟩
      obtain ⟨declarations, hok⟩ := Loading.exists_ok_iff.mpr hgood
      cases hok.symm.trans hfiles
    | ok declarations =>
      exact Or.inr (Or.inr ⟨declarations, Loading.enumerates_files hfiles, h declarations hfiles⟩)

theorem run_deny_of_namesPass (h : generator.NamesPass fs) :
    ((generator.withPolicy .deny).run fs).result = ((generator.withPolicy .allow).run fs).result ∧
      ((generator.withPolicy .deny).run fs).fileSystem =
        ((generator.withPolicy .allow).run fs).fileSystem := by
  have hok : ∀ declarations,
      (Loading.files fs (generator.listed fs)).result = .ok declarations →
        checkNames .deny declarations = .ok [] := by
    intro declarations hfiles
    exact checkNames_deny_of_nodup (namesPass_iff.mp h declarations hfiles)
  obtain ⟨hresult, hfs, -⟩ := run_of_warnings (fun _ _ => rfl) hok
  exact ⟨hresult, hfs⟩

theorem run_deny_of_not_namesPass (h : ¬ generator.NamesPass fs) :
    ∃ declarations, (Loading.files fs (generator.listed fs)).result = .ok declarations ∧
      ((generator.withPolicy .deny).run fs).result =
        .error (.duplicates (Duplicate.ofDeclarations declarations)) ∧
      ((generator.withPolicy .deny).run fs).fileSystem = fs := by
  obtain ⟨declarations, hnot⟩ := not_forall.mp (mt namesPass_iff.mpr h)
  obtain ⟨hfiles, hrepeated⟩ := Classical.not_imp.mp hnot
  have hne : declarations ≠ [] := by
    rintro rfl
    exact hrepeated List.nodup_nil
  have hdeny : (generator.withPolicy .deny).run fs = _ := run_eq_of_declarations hfiles hne
  have hnames : checkNames (generator.withPolicy .deny).duplicates declarations = .error _ :=
    checkNames_deny_of_not_nodup hrepeated
  rw [write_eq_of_error hnames] at hdeny
  rw [hdeny]
  exact ⟨declarations, hfiles, rfl, rfl⟩

theorem nodup_of_run_deny_written {path : Path} {enums : Nat}
    (h : ((generator.withPolicy .deny).run fs).result = .ok (.written path enums)) :
    ∃ declarations, Enumerates Site.Before (DeclaredAt fs (generator.listed fs)) declarations ∧
      generator.inOutput? fs ((generator.withPolicy .deny).run fs).fileSystem =
        some (.file (Declaration.render declarations).toUTF8) ∧
      (declarations.map (·.name)).Nodup := by
  obtain ⟨-, declarations, hfiles, -, -, hreplace⟩ := run_written_cases h
  refine ⟨declarations, Loading.enumerates_files hfiles, inOutput?_of_replaceFile hreplace, ?_⟩
  by_cases hpass : generator.NamesPass fs
  · exact namesPass_iff.mp hpass declarations hfiles
  · obtain ⟨_, -, hrefused, -⟩ := run_deny_of_not_namesPass hpass
    cases hrefused.symm.trans h

/-! ### The three runs -/

theorem filter_isNotable_repeatedName (repeated : List Duplicate) :
    (repeated.map Event.repeatedName).filter Event.isNotable = repeated.map .repeatedName := by
  refine List.filter_eq_self.mpr fun event hevent => ?_
  obtain ⟨duplicate, -, rfl⟩ := List.mem_map.mp hevent
  rfl

/-- **How the runs under the three policies are related.**  To warn is to allow, with a warning in the
log for each repeated name, in the order of the first declarations, once all files have been loaded.
To deny is to allow as well, if nothing stands against the names; if something does, the run fails
with the repeated names and changes nothing. -/
theorem run_withPolicy (generator : Generator) (fs : FileSystem) :
    let run (policy : DuplicatePolicy) := (generator.withPolicy policy).run fs
    let start (policy : DuplicatePolicy) : Event :=
      .started generator.inputDir generator.outputPath generator.discovery policy
    let Declares := Enumerates Site.Before (DeclaredAt fs (generator.listed fs))
    ((run .warn).result = (run .allow).result ∧
      (run .warn).fileSystem = (run .allow).fileSystem ∧
      ∃ front repeated behind,
        (run .allow).events.filter Event.isNotable = start .allow :: (front ++ behind) ∧
        (run .warn).events.filter Event.isNotable =
          start .warn :: (front ++ repeated.map .repeatedName ++ behind) ∧
        ((∃ file ∈ generator.listed fs, ¬ Good fs file) → repeated = []) ∧
        ((∀ file ∈ generator.listed fs, Good fs file) → ∀ declarations, Declares declarations →
          Enumerates Nat.lt (Duplicate.RepeatedFrom declarations) repeated)) ∧
    ((generator.NamesPass fs → (run .deny).result = (run .allow).result ∧
        (run .deny).fileSystem = (run .allow).fileSystem) ∧
      (¬ generator.NamesPass fs →
        (∃ names, (run .deny).result = .error (.duplicates names)) ∧
          (run .deny).fileSystem = fs) ∧
      (∀ path enums, (run .deny).result = .ok (.written path enums) →
        ∃ declarations, Declares declarations ∧
          generator.inOutput? fs (run .deny).fileSystem =
            some (.file (Declaration.render declarations).toUTF8) ∧
          (declarations.map (·.name)).Nodup)) ∧
    ∀ duplicate, .repeatedName duplicate ∉ (run .allow).events ∧
      .repeatedName duplicate ∉ (run .deny).events := by
  intro run start Declares
  obtain ⟨hresult, hfs, front, repeated, behind, hallow, hwarn, herror, hok⟩ :=
    run_warn generator fs
  refine ⟨⟨hresult, hfs, front.filter Event.isNotable, repeated, behind.filter Event.isNotable,
    ?_, ?_, ?_, ?_⟩, ⟨run_deny_of_namesPass, ?_, fun _ _ => nodup_of_run_deny_written⟩, ?_⟩
  · rw [hallow, List.filter_cons_of_pos rfl, List.filter_append]
    rfl
  · rw [hwarn, List.filter_cons_of_pos rfl, List.filter_append, List.filter_append,
      filter_isNotable_repeatedName]
    rfl
  · rintro ⟨file, hfile, hbad⟩
    cases hfiles : (Loading.files fs (generator.listed fs)).result with
    | error error => exact herror error hfiles
    | ok declarations =>
      exact absurd (Loading.exists_ok_iff.mp ⟨declarations, hfiles⟩ file hfile) hbad
  · intro hgood declarations hdeclares
    obtain ⟨loaded, hfiles⟩ := Loading.exists_ok_iff.mpr hgood
    rw [hok loaded hfiles,
      (Loading.enumerates_files hfiles).unique Site.Before.asymm hdeclares]
    exact Duplicate.enumerates_ofDeclarations declarations
  · intro hnot
    obtain ⟨declarations, -, hrefused, hkept⟩ := run_deny_of_not_namesPass hnot
    exact ⟨⟨_, hrefused⟩, hkept⟩
  · intro duplicate
    have hallows : (generator.withPolicy .allow).duplicates ≠ .warn := by simp [withPolicy]
    have hdenies : (generator.withPolicy .deny).duplicates ≠ .warn := by simp [withPolicy]
    exact ⟨repeatedName_notMem_run hallows duplicate, repeatedName_notMem_run hdenies duplicate⟩

end Generator

end SchemaEnums
