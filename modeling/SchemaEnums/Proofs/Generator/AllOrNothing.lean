import SchemaEnums.Proofs.Discovery.Policies
import SchemaEnums.Proofs.Generator.Unchanged

/-!
# Failing open is all or nothing

`failOpen` gives either what `keepGoing` gives, or nothing at all and a log that breaks off.  A run
over nothing finds no enum, so it leaves the file system alone, whatever the schema files hold.

* `run_of_no_files`: a run that lists no file has nothing to write.
* `scan_failOpen`: **the all-or-nothing law**, for every root.
-/

namespace SchemaEnums.Generator

theorem run_of_no_files {generator : Generator} {fs : FileSystem}
    (h : (Discovery.scan fs generator.inputDir generator.discovery).files = []) :
    (generator.run fs).result = .ok .noEnums ∧ (generator.run fs).fileSystem = fs := by
  refine run_of_loading_nil ?_
  rw [h]
  rfl

/-- **The all-or-nothing law.**  Where `keepGoing` collects no failure, `failOpen` does the same.
Where it collects one, `failOpen` has nothing, its log is the other one up to the first failure,
which is an error with the same path and cause instead of a warning, and a run under `failOpen`
finds no enum and changes nothing. -/
theorem scan_failOpen (fs : FileSystem) (root : Path) :
    let kept := Discovery.scan fs root .keepGoing
    let strict := Discovery.scan fs root .failOpen
    (kept.errors = [] → strict = kept) ∧
      (kept.errors ≠ [] →
        strict.files = [] ∧ strict.errors = [] ∧
          (∃ before error after, kept.events = before ++ .skipped error :: after ∧
            (∀ event ∈ before, ¬ event.IsFailure) ∧ kept.errors.head? = some error ∧
            strict.events = before ++ [.scanFailed error] ∧
            (Event.skipped error).level = .warn ∧ (Event.scanFailed error).level = .error ∧
            (Event.scanFailed error).record.fields = (Event.skipped error).record.fields) ∧
          ∀ outputDir fileName duplicates,
            let run := Generator.run ⟨root, outputDir, fileName, .failOpen, duplicates⟩ fs
            run.result = .ok .noEnums ∧ run.fileSystem = fs) := by
  intro kept strict
  have hkept : kept = _ := Discovery.scan_keepGoing fs root
  obtain hlisted | ⟨before, error, after, hsplit, hbefore⟩ :=
    Discovery.listed_or_first_unlisted (Listing.ofRoot fs root)
  · refine ⟨fun _ => Discovery.collect_of_listed hlisted, fun herrors => absurd ?_ herrors⟩
    rw [hkept]
    exact List.filterMap_eq_nil_iff.mpr hlisted
  · have hstrict : strict = _ := Discovery.scan_failOpen_of_unlisted hsplit hbefore
    have herrors : kept.errors = error :: after.filterMap Sighting.error? := by
      have hnone := List.filterMap_eq_nil_iff.mpr hbefore
      simp only [hkept, hsplit, List.filterMap_append, hnone]
      rfl
    have hevents : kept.events =
        before.map Sighting.event ++ .skipped error :: after.map Sighting.event := by
      simp only [hkept, hsplit, List.map_append]
      rfl
    refine ⟨fun hnone => ?_, fun _ => ⟨by rw [hstrict], by rw [hstrict], ?_, ?_⟩⟩
    · rw [herrors] at hnone
      cases hnone
    · refine ⟨before.map Sighting.event, error, after.map Sighting.event, hevents, ?_, ?_, ?_, rfl,
        rfl, rfl⟩
      · intro event hevent
        obtain ⟨sighting, hmem, rfl⟩ := List.mem_map.mp hevent
        exact Sighting.not_isFailure_event (hbefore sighting hmem)
      · rw [herrors, List.head?_cons]
      · rw [hstrict]
    · intro outputDir fileName duplicates
      exact run_of_no_files (congrArg Discovery.files hstrict)

example : (Discovery.scan .empty ⟨"in"⟩ .failOpen).events =
    [.scanFailed ⟨⟨"in"⟩, .noMetadata .notFound⟩] := by
  decide

end SchemaEnums.Generator
