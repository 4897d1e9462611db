import SchemaEnums.Discovery

/-!
# The two discovery policies

Both policies collect from the same sightings.  As long as every directory can be listed they
collect the same; the first one that cannot be listed is where they part.

* `Sighting.file?`, `Sighting.error?`, `Sighting.event`: what a single sighting adds under
  `keepGoing`, and `collect_keepGoing`: that is all there is to it.
* `collect_append`: **up to the first failure the policy does not matter.**
* `collect_failOpen_of_unlisted`: at the first failure `failOpen` keeps the log, and nothing else.
-/

namespace SchemaEnums

namespace Sighting

/-- The schema file that is seen, if it is one. -/
def file? : Sighting → Option Path
  | schema path => some path
  | _ => none

/-- The failure that is seen, if it is one. -/
def error? : Sighting → Option ListingError
  | unlisted error => some error
  | _ => none

/-- What a log shows of a sighting when the scan goes on. -/
def event : Sighting → Event
  | schema path => .discovered path
  | notUtf8 shown => .notUtf8 shown
  | unlisted error => .skipped error

theorem eq_unlisted_of_error? {sighting : Sighting} {error : ListingError}
    (h : sighting.error? = some error) : sighting = unlisted error := by
  cases sighting with
  | unlisted found =>
    cases h
    rfl
  | schema path => cases h
  | notUtf8 shown => cases h

end Sighting

/-- The report of a directory that cannot be listed, under either policy. -/
def Event.IsFailure (event : Event) : Prop :=
  ∃ error, event = .skipped error ∨ event = .scanFailed error

theorem Sighting.not_isFailure_event {sighting : Sighting} (h : sighting.error? = none) :
    ¬ sighting.event.IsFailure := by
  rintro ⟨error, hevent | hevent⟩
  · cases sighting with
    | unlisted found => cases h
    | schema path => cases hevent
    | notUtf8 shown => cases hevent
  · cases sighting <;> cases hevent

namespace Discovery

variable {policy : DiscoveryPolicy} {collected : Discovery} {sightings : List Sighting}

theorem collect_keepGoing (collected : Discovery) (sightings : List Sighting) :
    collect .keepGoing collected sightings =
      ⟨collected.files ++ sightings.filterMap Sighting.file?,
        collected.errors ++ sightings.filterMap Sighting.error?,
        collected.events ++ sightings.map Sighting.event⟩ := by
  induction sightings generalizing collected with
  | nil => simp [collect]
  | cons sighting rest ih =>
    cases sighting <;>
      simp [collect, ih, List.filterMap_cons, Sighting.file?, Sighting.error?, Sighting.event]

theorem scan_keepGoing (fs : FileSystem) (root : Path) :
    scan fs root .keepGoing =
      ⟨(Listing.ofRoot fs root).filterMap Sighting.file?,
        (Listing.ofRoot fs root).filterMap Sighting.error?,
        (Listing.ofRoot fs root).map Sighting.event⟩ := by
  rw [scan, collect_keepGoing]
  rfl

/-- **Up to the first failure the policy does not matter.** -/
theorem collect_append {before : List Sighting} (h : ∀ s ∈ before, s.error? = none)
    (rest : List Sighting) :
    collect policy collected (before ++ rest) =
      collect policy (collect .keepGoing collected before) rest := by
  induction before generalizing collected with
  | nil => simp [collect]
  | cons sighting before ih =>
    have hrest := fun s hs => h s (List.mem_cons_of_mem _ hs)
    cases sighting with
    | schema path => simp only [List.cons_append, collect, ih hrest]
    | notUtf8 shown => simp only [List.cons_append, collect, ih hrest]
    | unlisted error => exact absurd (h _ List.mem_cons_self) (by simp [Sighting.error?])

theorem collect_of_listed (h : ∀ s ∈ sightings, s.error? = none) :
    collect policy collected sightings = collect .keepGoing collected sightings := by
  have happend : collect policy collected (sightings ++ []) = _ := collect_append h []
  simpa [collect] using happend

/-- At the first failure `failOpen` keeps the log up to it, with the failure behind, and nothing
else. -/
theorem collect_failOpen_of_unlisted {before : List Sighting} (h : ∀ s ∈ before, s.error? = none)
    (error : ListingError) (after : List Sighting) :
    collect .failOpen collected (before ++ .unlisted error :: after) =
      ⟨[], [], collected.events ++ before.map Sighting.event ++ [.scanFailed error]⟩ := by
  rw [collect_append h, collect_keepGoing, collect]

theorem scan_failOpen_of_unlisted {fs : FileSystem} {root : Path} {before after : List Sighting}
    {error : ListingError} (hsplit : Listing.ofRoot fs root = before ++ .unlisted error :: after)
    (h : ∀ s ∈ before, s.error? = none) :
    scan fs root .failOpen = ⟨[], [], before.map Sighting.event ++ [.scanFailed error]⟩ := by
  rw [scan, hsplit, collect_failOpen_of_unlisted h]
  rfl

theorem listed_or_first_unlisted (sightings : List Sighting) :
    (∀ s ∈ sightings, s.error? = none) ∨
      ∃ before error after, sightings = before ++ .unlisted error :: after ∧
        ∀ s ∈ before, s.error? = none := by
  cases hfind : sightings.find? (·.error?.isSome) with
  | none =>
    apply Or.inl
    intro s hs
    simpa using List.find?_eq_none.mp hfind s hs
  | some first =>
    obtain ⟨hfirst, before, after, hsplit, hbefore⟩ := List.find?_eq_some_iff_append.mp hfind
    obtain ⟨error, herror⟩ := Option.isSome_iff_exists.mp hfirst
    rw [Sighting.eq_unlisted_of_error? herror] at hsplit
    exact Or.inr ⟨before, error, after, hsplit, fun s hs => by simpa using hbefore s hs⟩

end Discovery

end SchemaEnums
