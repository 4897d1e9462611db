import SchemaEnums.FileSystem.Content
import SchemaEnums.Proofs.FileSystem.Following

/-!
# File systems that differ in one entry

Two file systems may have the same entries everywhere but at one place.  Then a path leads to the
same location in both, unless the following comes to this place.

* `FileSystem.DiffersOnlyAt`: the same entries but for the one at a place, which is no directory.
* `differsOnlyAt_put`: **a name that is put in place of no directory changes the entry of this name
  and nothing else.**
* `FileSystem.Passes`, `FileSystem.PathPasses`: the following of a path comes to a place.
* `resolve_of_differsOnlyAt`, `readText_of_differsOnlyAt`: **a path that does not pass the place
  leads to the same location, and its file has the same text.**
-/

namespace SchemaEnums

namespace Entry

theorem Alike.symm {first second : Entry} (h : first.Alike second) : second.Alike first := by
  cases h with
  | directory before after => exact .directory after before
  | _ => exact .refl _

theorem Alike.isDirectory_eq {first second : Entry} (h : first.Alike second) :
    second.isDirectory = first.isDirectory := by
  cases h <;> rfl

theorem alike_symm_option {first second : Option Entry} (h : Option.Rel Alike first second) :
    Option.Rel Alike second first := by
  cases h with
  | none => exact .none
  | some halike => exact .some halike.symm

theorem alike_refl_option (entry : Option Entry) : Option.Rel Alike entry entry := by
  cases entry with
  | none => exact .none
  | some entry => exact .some (.refl entry)

theorem below?_cons_of_leaf {entry : Entry} (h : ¬ entry.isDirectory) (name : Name)
    (rest : Location) : entry.below? (name :: rest) = none := by
  cases entry with
  | directory inner => exact absurd rfl h
  | _ => rfl

end Entry

namespace Entries

theorem below?_cons {entries : Entries} (name : Name) (rest : Location) :
    (Entry.directory entries).below? (name :: rest) =
      (entries.lookup name).bind (·.below? rest) := by
  rw [Entry.below?]
  cases entries.lookup name <;> rfl

theorem lookup_update_of_ne {change : Entries → Entries} {first name : Name} (h : name ≠ first)
    (rest : Location) (entries : Entries) :
    (update change (first :: rest) entries).lookup name = entries.lookup name := by
  rw [lookup_update_cons]
  cases entries.lookup name with
  | none => rfl
  | some entry => cases entry <;> simp [h]

/-- Putting a name leaves alone all that is not at the name, if neither the old nor the new entry is
a directory. -/
theorem alike_below?_update_put {name : Name} {entry : Entry}
    (hentry : ¬ entry.isDirectory) :
    ∀ {location other : Location} {entries found : Entries}, at? entries location = some found →
      (∀ old ∈ found.lookup name, ¬ old.isDirectory) → other ≠ location ++ [name] →
      Option.Rel Entry.Alike ((Entry.directory entries).below? other)
        ((Entry.directory (update (put name entry) location entries)).below? other)
  | _, [], _, _, _, _, _ => .some (.directory _ _)
  | [], step :: rest, entries, found, hat, hold, hne => by
    cases hat
    rw [below?_cons, below?_cons, update]
    by_cases hstep : step = name
    · subst hstep
      obtain ⟨next, rest, rfl⟩ : ∃ next more, rest = next :: more :=
        List.exists_cons_of_ne_nil fun hnil => hne (by rw [hnil]; rfl)
      rw [lookup_put_self, Option.bind_some, Entry.below?_cons_of_leaf hentry]
      cases hlookup : entries.lookup step with
      | none => exact .none
      | some before =>
        rw [Option.bind_some, Entry.below?_cons_of_leaf (hold before hlookup)]
        exact .none
    · rw [lookup_put_of_ne hstep]
      exact Entry.alike_refl_option _
  | first :: location, step :: rest, entries, found, hat, hold, hne => by
    obtain ⟨below, hlookup, hbelow⟩ := at?_cons_eq_some hat
    rw [below?_cons, below?_cons]
    by_cases hstep : step = first
    · subst hstep
      have hrest : rest ≠ location ++ [name] := fun heq => hne (by rw [heq]; rfl)
      simp only [lookup_update_cons, hlookup, Option.map_some, Option.bind_some, if_true]
      exact alike_below?_update_put hentry hbelow hold hrest
    · rw [lookup_update_of_ne hstep location entries]
      exact Entry.alike_refl_option _

end Entries

namespace FileSystem

/-- Two file systems have the same entries but for the one at a place: the same files with the same
bytes, the same links and the same directories.  In neither of them is a directory at this place. -/
structure DiffersOnlyAt (before : FileSystem) (place : Location) (after : FileSystem) : Prop where
  workingDir : after.workingDir = before.workingDir
  elsewhere : ∀ other, other ≠ place →
    Option.Rel Entry.Alike (before.entryAt? other) (after.entryAt? other)
  no_directory_before : ∀ entry ∈ before.entryAt? place, ¬ entry.isDirectory
  no_directory_after : ∀ entry ∈ after.entryAt? place, ¬ entry.isDirectory

variable {fs before after : FileSystem} {place location here there : Location} {name : Name}
  {entry : Entry} {entries : Entries} {links : Nat} {segments : List (List UInt8)} {path : Path}

/-- **A name that is put in place of no directory changes the entry of this name and nothing
else.** -/
theorem differsOnlyAt_put (hat : fs.entriesAt? location = some entries)
    (hold : ∀ old ∈ entries.lookup name, ¬ old.isDirectory) (hnew : ¬ entry.isDirectory)
    (hentry : entry.Ordered) :
    fs.DiffersOnlyAt (location ++ [name]) (fs.put location name entry hentry) where
  workingDir := rfl
  elsewhere := by
    intro other hne
    rw [entriesAt?_eq] at hat
    exact Entries.alike_below?_update_put hnew hat hold hne
  no_directory_before := by
    rw [entryAt?_append_singleton, hat]
    exact hold
  no_directory_after := by
    rw [entryAt?_put_self hat name hentry]
    rintro _ ⟨⟩
    exact hnew

namespace DiffersOnlyAt

theorem symm (h : before.DiffersOnlyAt place after) : after.DiffersOnlyAt place before where
  workingDir := h.workingDir.symm
  elsewhere := fun other hne => Entry.alike_symm_option (h.elsewhere other hne)
  no_directory_before := h.no_directory_after
  no_directory_after := h.no_directory_before

theorem exists_alike (h : before.DiffersOnlyAt place after) {other : Location} (hne : other ≠ place)
    (hentry : before.entryAt? other = some entry) :
    ∃ later, after.entryAt? other = some later ∧ entry.Alike later := by
  have hrel := h.elsewhere other hne
  rw [hentry] at hrel
  generalize after.entryAt? other = found at hrel
  cases hrel with
  | some halike => exact ⟨_, rfl, halike⟩

theorem exists_directory (h : before.DiffersOnlyAt place after)
    (hat : before.entryAt? here = some (.directory entries)) :
    ∃ later, after.entryAt? here = some (.directory later) := by
  have hne : here ≠ place := by
    rintro rfl
    exact h.no_directory_before _ hat rfl
  obtain ⟨later, hlater, halike⟩ := h.exists_alike hne hat
  cases halike with
  | directory _ inner => exact ⟨inner, hlater⟩

theorem entryAt?_closed (h : before.DiffersOnlyAt place after) {refusal : OsError}
    (hclosed : before.entryAt? here = some (.closedDirectory refusal)) :
    after.entryAt? here = some (.closedDirectory refusal) := by
  have hne : here ≠ place := by
    rintro rfl
    exact h.no_directory_before _ hclosed rfl
  obtain ⟨later, hlater, halike⟩ := h.exists_alike hne hclosed
  cases halike
  exact hlater

/-- In a directory every name still means the same, if it is not the one at the place. -/
theorem exists_lookup (h : before.DiffersOnlyAt place after)
    (hat : before.entriesAt? here = some entries) (hne : here ++ [name] ≠ place)
    (hlookup : entries.lookup name = some entry) {later : Entries}
    (hlater : after.entriesAt? here = some later) :
    ∃ found, later.lookup name = some found ∧ entry.Alike found := by
  have hentry : before.entryAt? (here ++ [name]) = some entry := by
    rw [entryAt?_append_singleton, hat, Option.bind_some, hlookup]
  obtain ⟨found, hfound, halike⟩ := h.exists_alike hne hentry
  rw [entryAt?_append_singleton, hlater, Option.bind_some] at hfound
  exact ⟨found, hfound, halike⟩

theorem exists_entriesAt? (h : before.DiffersOnlyAt place after)
    (hat : before.entriesAt? here = some entries) :
    ∃ later, after.entriesAt? here = some later := by
  obtain ⟨later, hlater⟩ := h.exists_directory (entriesAt?_eq_some_iff.mp hat)
  exact ⟨later, entriesAt?_eq_some_iff.mpr hlater⟩

end DiffersOnlyAt

/-! ### Passing a place -/

/-- Following segments from a directory comes to a place: at some step the next segment is looked up
in the directory of the place, and it is the name of the place. -/
inductive Passes (fs : FileSystem) (place : Location) : Nat → Location → List (List UInt8) → Prop
  | here {links : Nat} {here : Location} {entries : Entries} {name : Name}
      {rest : List (List UInt8)} : fs.entriesAt? here = some entries → here ++ [name] = place →
      Passes fs place links here (name.val :: rest)
  | idle {links : Nat} {here : Location} {entries : Entries} {segment : List UInt8}
      {rest : List (List UInt8)} : fs.entriesAt? here = some entries →
      segment = [] ∨ segment = [46] → Passes fs place links here rest →
      Passes fs place links here (segment :: rest)
  | up {links : Nat} {here : Location} {entries : Entries} {rest : List (List UInt8)} :
      fs.entriesAt? here = some entries → Passes fs place links here.dropLast rest →
      Passes fs place links here ([46, 46] :: rest)
  | link {links : Nat} {here : Location} {entries : Entries} {name : Name} {target : Path}
      {rest : List (List UInt8)} : fs.entriesAt? here = some entries →
      entries.lookup name = some (.link target) →
      Passes fs place links (target.start here) (target.segments ++ rest) →
      Passes fs place (links + 1) here (name.val :: rest)
  | enter {links : Nat} {here : Location} {entries : Entries} {name : Name} {entry : Entry}
      {rest : List (List UInt8)} : fs.entriesAt? here = some entries →
      entries.lookup name = some entry → (∀ target, entry ≠ .link target) →
      Passes fs place links (here ++ [name]) rest → Passes fs place links here (name.val :: rest)

/-- The following of a path comes to a place. -/
def PathPasses (fs : FileSystem) (path : Path) (place : Location) : Prop :=
  path.refusal? = none ∧ fs.Passes place maxLinks (path.start fs.workingDir) path.segments

theorem not_passes_nil : ¬ fs.Passes place links here [] := nofun

theorem not_passes_of_closed {refusal : OsError}
    (hclosed : fs.entryAt? here = some (.closedDirectory refusal)) :
    ¬ fs.Passes place links here segments := by
  intro h
  obtain ⟨entries, hat⟩ : ∃ entries, fs.entriesAt? here = some entries := by
    cases h <;> exact ⟨_, by assumption⟩
  cases (entriesAt?_eq_some_iff.mp hat).symm.trans hclosed

theorem Passes.of_idle {segment : List UInt8} {rest : List (List UInt8)}
    (h : fs.Passes place links here (segment :: rest)) (hidle : segment = [] ∨ segment = [46]) :
    fs.Passes place links here rest := by
  cases h with
  | @here _ _ _ name _ _ _ => exact absurd hidle name.not_special.1
  | idle _ _ hrest => exact hrest
  | up _ _ => exact absurd hidle (by decide)
  | @link _ _ _ name _ _ _ _ _ => exact absurd hidle name.not_special.1
  | @enter _ _ _ name _ _ _ _ _ _ => exact absurd hidle name.not_special.1

/-- Past a name of another entry, which is no link, the following goes on there. -/
theorem Passes.of_name {segment : List UInt8} {rest : List (List UInt8)}
    (h : fs.Passes place links here (segment :: rest)) (hsegment : segment = name.val)
    (hne : here ++ [name] ≠ place) (hentry : fs.entryAt? (here ++ [name]) = some entry)
    (hnolink : ∀ target, entry ≠ .link target) : fs.Passes place links (here ++ [name]) rest := by
  cases h with
  | here _ hplace =>
    cases Subtype.ext hsegment
    exact absurd hplace hne
  | idle _ hidle _ =>
    rw [hsegment] at hidle
    exact absurd hidle name.not_special.1
  | up _ _ => exact absurd hsegment.symm name.not_special.2
  | link hat hlookup _ =>
    cases Subtype.ext hsegment
    rw [entryAt?_append_singleton, hat, Option.bind_some, hlookup] at hentry
    exact absurd (Option.some.inj hentry).symm (hnolink _)
  | enter _ _ _ hrest =>
    cases Subtype.ext hsegment
    exact hrest

/-- **Segments that do not pass the place lead to the same location.** -/
theorem follows_of_differsOnlyAt (h : before.DiffersOnlyAt place after)
    (hfollows : before.Follows links here segments there)
    (hpasses : ¬ after.Passes place links here segments) :
    after.Follows links here segments there := by
  induction hfollows with
  | done => exact .done
  | closed hclosed _ ih =>
    have hlater := h.entryAt?_closed hclosed
    exact .closed hlater (ih (not_passes_of_closed hlater))
  | idle hat hidle _ ih =>
    obtain ⟨later, hlater⟩ := h.exists_entriesAt? hat
    exact .idle hlater hidle (ih fun hrest => hpasses (.idle hlater hidle hrest))
  | up hat _ ih =>
    obtain ⟨later, hlater⟩ := h.exists_entriesAt? hat
    exact .up hlater (ih fun hrest => hpasses (.up hlater hrest))
  | link hat hlookup _ ih =>
    obtain ⟨later, hlater⟩ := h.exists_entriesAt? hat
    have hne := fun heq => hpasses (.here hlater heq)
    obtain ⟨found, hfound, halike⟩ := h.exists_lookup hat hne hlookup hlater
    cases halike with
    | link target => exact .link hlater hfound (ih fun hrest => hpasses (.link hlater hfound hrest))
  | @enter _ _ _ _ name entry _ hat hlookup hnolink _ ih =>
    obtain ⟨later, hlater⟩ := h.exists_entriesAt? hat
    have hne := fun heq => hpasses (.here hlater heq)
    obtain ⟨found, hfound, halike⟩ := h.exists_lookup hat hne hlookup hlater
    have hfoundNoLink : ∀ target, found ≠ .link target := by
      rintro target rfl
      cases halike with
      | link target => exact hnolink target rfl
    refine .enter hlater hfound hfoundNoLink (ih fun hrest => ?_)
    exact hpasses (.enter hlater hfound hfoundNoLink hrest)

theorem resolve_eq_ok_iff :
    fs.resolve path = .ok there ↔ path.refusal? = none ∧
      fs.Follows maxLinks (path.start fs.workingDir) path.segments there := by
  unfold resolve
  cases path.refusal? with
  | some error => simp
  | none => simp [follow_eq_ok_iff]

/-- **A path that does not pass the place leads to the same location.** -/
theorem resolve_of_differsOnlyAt (h : before.DiffersOnlyAt place after)
    (hresolve : before.resolve path = .ok there) (hpasses : ¬ after.PathPasses path place) :
    after.resolve path = .ok there := by
  obtain ⟨hrefusal, hfollows⟩ := resolve_eq_ok_iff.mp hresolve
  rw [← h.workingDir] at hfollows
  exact resolve_eq_ok_iff.mpr ⟨hrefusal,
    follows_of_differsOnlyAt h hfollows fun hpass => hpasses ⟨hrefusal, hpass⟩⟩

/-! ### What a path leads to -/

theorem exists_entriesAt?_dropLast (hat : fs.entriesAt? here = some entries) :
    ∃ parent, fs.entriesAt? here.dropLast = some parent := by
  rcases List.eq_nil_or_concat' here with rfl | ⟨init, last, rfl⟩
  · exact ⟨entries, hat⟩
  · rw [List.dropLast_concat]
    rw [entriesAt?_eq_some_iff, entryAt?_append_singleton] at hat
    obtain ⟨parent, hparent, -⟩ := Option.bind_eq_some_iff.mp hat
    exact ⟨parent, hparent⟩

/-- Segments that lead to no directory pass what they lead to, namely at their end. -/
theorem Follows.passes_of_leaf (h : fs.Follows links here segments there) (hne : segments ≠ [])
    (hleaf : ∀ entry ∈ fs.entryAt? there, ¬ entry.isDirectory) :
    fs.Passes there links here segments := by
  induction h with
  | done => exact absurd rfl hne
  | @closed _ _ _ _ rest hclosed hrest ih =>
    -- only empty segments get past a closed directory, so this one is what they lead to
    by_cases hnil : rest = []
    · subst hnil
      cases hrest
      exact absurd rfl (hleaf _ hclosed)
    · exact absurd (ih hnil hleaf) (not_passes_of_closed hclosed)
  | @idle _ _ _ _ _ rest hat hidle hrest ih =>
    by_cases hnil : rest = []
    · subst hnil
      cases hrest
      exact absurd rfl (hleaf _ (entriesAt?_eq_some_iff.mp hat))
    · exact .idle hat hidle (ih hnil hleaf)
  | @up _ _ _ _ rest hat hrest ih =>
    by_cases hnil : rest = []
    · subst hnil
      cases hrest
      obtain ⟨parent, hparent⟩ := exists_entriesAt?_dropLast hat
      exact absurd rfl (hleaf _ (entriesAt?_eq_some_iff.mp hparent))
    · exact .up hat (ih hnil hleaf)
  | @link _ _ _ _ _ target rest hat hlookup _ ih =>
    have hsegments : target.segments ≠ [] := List.splitOn_ne_nil _ _
    exact .link hat hlookup (ih (List.append_ne_nil_of_left_ne_nil hsegments rest) hleaf)
  | @enter _ _ _ _ _ _ rest hat hlookup hnolink hrest ih =>
    by_cases hnil : rest = []
    · subst hnil
      cases hrest
      exact .here hat rfl
    · exact .enter hat hlookup hnolink (ih hnil hleaf)

theorem stat_eq_ok_iff :
    fs.stat path = .ok entry ↔
      ∃ there, fs.resolve path = .ok there ∧ fs.entryAt? there = some entry := by
  unfold stat
  cases fs.resolve path with
  | error error => simp
  | ok there => cases hentry : fs.entryAt? there <;> simp [hentry]

theorem stat_directory_of_differsOnlyAt (h : before.DiffersOnlyAt place after)
    (hstat : before.stat path = .ok (.directory entries))
    (hpasses : ¬ after.PathPasses path place) :
    ∃ there later, before.resolve path = .ok there ∧ after.resolve path = .ok there ∧
      before.entryAt? there = some (.directory entries) ∧
      after.entryAt? there = some (.directory later) := by
  obtain ⟨there, hresolve, hentry⟩ := stat_eq_ok_iff.mp hstat
  obtain ⟨later, hlater⟩ := h.exists_directory hentry
  exact ⟨there, later, hresolve, resolve_of_differsOnlyAt h hresolve hpasses, hentry, hlater⟩

theorem stat_file_of_differsOnlyAt (h : before.DiffersOnlyAt place after) {content : ByteArray}
    (hstat : before.stat path = .ok (.file content)) (hpasses : ¬ after.PathPasses path place) :
    after.stat path = .ok (.file content) := by
  obtain ⟨there, hresolve, hentry⟩ := stat_eq_ok_iff.mp hstat
  have hlater := resolve_of_differsOnlyAt h hresolve hpasses
  have hne : there ≠ place := by
    rintro rfl
    obtain ⟨hrefusal, hfollows⟩ := resolve_eq_ok_iff.mp hlater
    have hsegments : path.segments ≠ [] := List.splitOn_ne_nil _ _
    exact hpasses ⟨hrefusal, hfollows.passes_of_leaf hsegments h.no_directory_after⟩
  obtain ⟨found, hfound, halike⟩ := h.exists_alike hne hentry
  cases halike
  exact stat_eq_ok_iff.mpr ⟨there, hlater, hfound⟩

/-- **A file whose path does not pass the place has the same text.** -/
theorem readText_of_differsOnlyAt (h : before.DiffersOnlyAt place after) {text : String}
    (hread : before.readText path = .ok text) (hpasses : ¬ after.PathPasses path place) :
    after.readText path = .ok text := by
  unfold readText at hread
  split at hread
  case h_4 content hstat =>
    rw [readText, stat_file_of_differsOnlyAt h hstat hpasses]
    exact hread
  all_goals cases hread

end FileSystem

end SchemaEnums
