import Mathlib.Data.List.Basic
import SchemaEnums.FileSystem.Resolution
import SchemaEnums.Proofs.FileSystem.Entries

/-!
# Following a path after a change

A new entry with a fresh name is in nobody's way: what a path led to, it still leads to.

* `Entries.Extends`: every name keeps its meaning, up to what is inside of directories.
* `FileSystem.entriesAt?_put`: a fresh name extends the directories that are there.
* `FileSystem.Follows`: the steps by which segments lead to a location.
* `FileSystem.follow_put`: **a path that can be followed leads to the same location after a fresh
  name has been put.**
* `FileSystem.follow_of_append_idle`: an empty segment or a dot at the end of a path changes
  nothing.
-/

namespace SchemaEnums

/-- The same file, link or closed entry, or two directories. -/
inductive Entry.Alike : Entry → Entry → Prop
  | file (content : ByteArray) : Alike (.file content) (.file content)
  | link (target : Path) : Alike (.link target) (.link target)
  | directory (before after : List (Name × Entry)) : Alike (.directory before) (.directory after)
  | closedFile (refusal : OsError) : Alike (.closedFile refusal) (.closedFile refusal)
  | closedDirectory (refusal : OsError) :
      Alike (.closedDirectory refusal) (.closedDirectory refusal)

theorem Entry.Alike.refl : ∀ entry : Entry, entry.Alike entry
  | .file content => .file content
  | .link target => .link target
  | .directory entries => .directory entries entries
  | .closedFile refusal => .closedFile refusal
  | .closedDirectory refusal => .closedDirectory refusal

namespace Entries

/-- Every name that has a meaning keeps it, up to what is inside of a directory. -/
def Extends (before after : Entries) : Prop :=
  ∀ name entry, before.lookup name = some entry →
    ∃ later, after.lookup name = some later ∧ entry.Alike later

theorem Extends.refl (entries : Entries) : Extends entries entries :=
  fun _ entry h => ⟨entry, h, .refl entry⟩

theorem extends_put {entries : Entries} {name : Name} (hfresh : entries.lookup name = none)
    (entry : Entry) : Extends entries (put name entry entries) := by
  intro other found hfound
  have hne : other ≠ name := by
    rintro rfl
    rw [hfresh] at hfound
    cases hfound
  exact ⟨found, by rw [lookup_put_of_ne hne, hfound], .refl found⟩

theorem extends_update_cons (change : Entries → Entries) (first : Name) (rest : Location)
    (entries : Entries) : Extends entries (update change (first :: rest) entries) := by
  intro name found hfound
  refine ⟨_, by rw [lookup_update_cons, hfound]; rfl, ?_⟩
  cases found with
  | directory inner =>
    simp only
    split
    · exact .directory _ _
    · exact .directory _ _
  | _ => exact .refl _

theorem at?_update_put {name : Name} (entry : Entry) :
    ∀ {here location : Location} {entries found : Entries},
      (∀ inner, at? entries location = some inner → inner.lookup name = none) →
      at? entries here = some found →
      ∃ later, at? (update (put name entry) location entries) here = some later ∧
        found.Extends later
  | [], [], entries, found, hfresh, hat => by
    cases hat
    exact ⟨_, rfl, extends_put (hfresh entries rfl) entry⟩
  | [], first :: rest, entries, found, _, hat => by
    cases hat
    exact ⟨_, rfl, extends_update_cons _ first rest entries⟩
  | step :: here, [], entries, found, hfresh, hat => by
    obtain ⟨below, hlookup, hbelow⟩ := at?_cons_eq_some hat
    have hne : step ≠ name := by
      rintro rfl
      rw [hfresh entries rfl] at hlookup
      cases hlookup
    have hput : (put name entry entries).lookup step = some (.directory below) := by
      rw [lookup_put_of_ne hne, hlookup]
    exact ⟨found, by rw [update, at?_cons_of_lookup hput, hbelow], .refl found⟩
  | step :: here, first :: rest, entries, found, hfresh, hat => by
    obtain ⟨below, hlookup, hbelow⟩ := at?_cons_eq_some hat
    by_cases heq : step = first
    · subst heq
      have hfresh' : ∀ inner, at? below rest = some inner → inner.lookup name = none :=
        fun inner hinner => hfresh inner (by rw [at?_cons_of_lookup hlookup, hinner])
      obtain ⟨later, hlater, hext⟩ := at?_update_put entry hfresh' hbelow
      have hlookup' : (update (put name entry) (step :: rest) entries).lookup step =
          some (.directory (update (put name entry) rest below)) := by
        simp [lookup_update_cons, hlookup]
      exact ⟨later, by rw [at?_cons_of_lookup hlookup', hlater], hext⟩
    · have hlookup' : (update (put name entry) (first :: rest) entries).lookup step =
          some (.directory below) := by
        simp [lookup_update_cons, hlookup, heq]
      exact ⟨found, by rw [at?_cons_of_lookup hlookup', hbelow], .refl found⟩

end Entries

namespace FileSystem

variable {fs : FileSystem} {location here there : Location} {name : Name} {entry : Entry}
  {entries : Entries} {links : Nat} {segments : List (List UInt8)}

theorem ext_of {first second : FileSystem} (hentries : first.entries = second.entries)
    (hdir : first.workingDir = second.workingDir) : first = second := by
  cases first
  cases second
  cases hentries
  cases hdir
  rfl

theorem entriesAt?_eq (fs : FileSystem) (location : Location) :
    fs.entriesAt? location = fs.entries.at? location := by
  unfold entriesAt? entryAt?
  generalize fs.entries = entries
  induction location generalizing entries with
  | nil => rfl
  | cons first rest ih =>
    rw [Entry.below?, Entries.at?]
    cases hfirst : entries.lookup first with
    | none => rfl
    | some found =>
      cases found with
      | directory inner => exact ih inner
      | _ => cases rest <;> rfl

theorem entriesAt?_eq_some_iff :
    fs.entriesAt? location = some entries ↔ fs.entryAt? location = some (.directory entries) := by
  unfold entriesAt?
  cases fs.entryAt? location with
  | none => simp
  | some entry => cases entry <;> simp

theorem openDirectory_eq_ok_iff :
    fs.openDirectory location = .ok entries ↔ fs.entriesAt? location = some entries := by
  unfold openDirectory entriesAt?
  cases fs.entryAt? location with
  | none => simp
  | some entry => cases entry <;> simp

theorem entryAt?_append_singleton (fs : FileSystem) (location : Location) (name : Name) :
    fs.entryAt? (location ++ [name]) = (fs.entriesAt? location).bind (·.lookup name) := by
  rw [entriesAt?_eq, entryAt?, Entries.below?_append_singleton]

theorem entryAt?_of_directory (h : fs.entryAt? location = some (.directory entries)) (name : Name) :
    fs.entryAt? (location ++ [name]) = entries.lookup name := by
  have hat : fs.entriesAt? location = some entries := by
    rw [entriesAt?, h]
  rw [entryAt?_append_singleton, hat, Option.bind_some]

theorem entriesAt?_put_self (hat : fs.entriesAt? location = some entries) (name : Name)
    {entry : Entry} (hentry : entry.Ordered) :
    (fs.put location name entry hentry).entriesAt? location =
      some (Entries.put name entry entries) := by
  rw [entriesAt?_eq] at hat ⊢
  exact Entries.at?_update_self hat

theorem entryAt?_put_self (hat : fs.entriesAt? location = some entries) (name : Name)
    {entry : Entry} (hentry : entry.Ordered) :
    (fs.put location name entry hentry).entryAt? (location ++ [name]) = some entry := by
  rw [entryAt?_append_singleton, entriesAt?_put_self hat name hentry, Option.bind_some,
    Entries.lookup_put_self]

/-- A name is fresh at a location if no entry there has it. -/
def Fresh (fs : FileSystem) (location : Location) (name : Name) : Prop :=
  ∀ entries, fs.entriesAt? location = some entries → entries.lookup name = none

theorem entriesAt?_put (hfresh : fs.Fresh location name) (hentry : entry.Ordered)
    (hat : fs.entriesAt? here = some entries) :
    ∃ later, (fs.put location name entry hentry).entriesAt? here = some later ∧
      entries.Extends later := by
  rw [entriesAt?_eq] at hat
  obtain ⟨later, hlater, hext⟩ := Entries.at?_update_put entry
    (fun inner hinner => hfresh inner (by rw [entriesAt?_eq, hinner])) hat
  exact ⟨later, by rw [entriesAt?_eq]; exact hlater, hext⟩

/-- A closed directory is still there, as the top is none. -/
theorem entryAt?_put_of_closed (hfresh : fs.Fresh location name) (hentry : entry.Ordered)
    {refusal : OsError} (hclosed : fs.entryAt? here = some (.closedDirectory refusal)) :
    (fs.put location name entry hentry).entryAt? here = some (.closedDirectory refusal) := by
  obtain rfl | ⟨init, last, rfl⟩ := List.eq_nil_or_concat' here
  · cases hclosed
  · rw [entryAt?_append_singleton] at hclosed ⊢
    obtain ⟨found, hat, hlookup⟩ := Option.bind_eq_some_iff.mp hclosed
    obtain ⟨later, hlater, hext⟩ := entriesAt?_put hfresh hentry hat
    obtain ⟨_, hlookup', halike⟩ := hext _ _ hlookup
    cases halike
    rw [hlater, Option.bind_some, hlookup']

/-! ### Following, step by step -/

/-- The steps by which segments lead from a directory to a location: one constructor for each way to
get past a segment. -/
inductive Follows (fs : FileSystem) : Nat → Location → List (List UInt8) → Location → Prop
  | done {links : Nat} {here : Location} : Follows fs links here [] here
  | closed {links : Nat} {here there : Location} {refusal : OsError} {rest : List (List UInt8)} :
      fs.entryAt? here = some (.closedDirectory refusal) → Follows fs links here rest there →
      Follows fs links here ([] :: rest) there
  | idle {links : Nat} {here there : Location} {entries : Entries} {segment : List UInt8}
      {rest : List (List UInt8)} : fs.entriesAt? here = some entries →
      segment = [] ∨ segment = [46] → Follows fs links here rest there →
      Follows fs links here (segment :: rest) there
  | up {links : Nat} {here there : Location} {entries : Entries} {rest : List (List UInt8)} :
      fs.entriesAt? here = some entries → Follows fs links here.dropLast rest there →
      Follows fs links here ([46, 46] :: rest) there
  | link {links : Nat} {here there : Location} {entries : Entries} {name : Name} {target : Path}
      {rest : List (List UInt8)} : fs.entriesAt? here = some entries →
      entries.lookup name = some (.link target) →
      Follows fs links (target.start here) (target.segments ++ rest) there →
      Follows fs (links + 1) here (name.val :: rest) there
  | enter {links : Nat} {here there : Location} {entries : Entries} {name : Name} {entry : Entry}
      {rest : List (List UInt8)} : fs.entriesAt? here = some entries →
      entries.lookup name = some entry → (∀ target, entry ≠ .link target) →
      Follows fs links (here ++ [name]) rest there → Follows fs links here (name.val :: rest) there

theorem follows_of_followWith {behind : Location → List (List UInt8) → Except OsError Location}
    (hbehind : ∀ {here segments}, behind here segments = .ok there →
      ∃ less, links = less + 1 ∧ fs.Follows less here segments there)
    (h : fs.followWith behind here segments = .ok there) : fs.Follows links here segments there := by
  -- a case for each way to go on; in all the others the following has failed
  fun_induction followWith fs behind here segments with
  | case1 =>
    cases h
    exact .done
  | case2 here rest refusal hclosed ih => exact .closed hclosed (ih h)
  | case4 here segment rest entries hat hidle ih =>
    exact .idle (entriesAt?_eq_some_iff.mpr hat) hidle (ih h)
  | case5 here rest entries hat _ ih => exact .up (entriesAt?_eq_some_iff.mpr hat) (ih h)
  | case8 here segment rest entries hat _ _ name hname target hlookup =>
    obtain rfl := Name.ofBytes?_eq_some_iff.mp hname
    obtain ⟨less, rfl, hfollows⟩ := hbehind h
    exact .link (entriesAt?_eq_some_iff.mpr hat) hlookup hfollows
  | case9 here segment rest entries hat _ _ name hname entry hentry hlookup ih =>
    obtain rfl := Name.ofBytes?_eq_some_iff.mp hname
    exact .enter (entriesAt?_eq_some_iff.mpr hat) hlookup hentry (ih h)
  | _ => cases h

theorem follows_of_follow (h : fs.follow links here segments = .ok there) :
    fs.Follows links here segments there := by
  induction links generalizing here segments with
  | zero =>
    rw [follow] at h
    refine follows_of_followWith ?_ h
    nofun
  | succ links ih =>
    rw [follow] at h
    exact follows_of_followWith (fun hbehind => ⟨links, rfl, ih hbehind⟩) h

/-- How a link is gone past if at most `links` of them are. -/
def behindLink (fs : FileSystem) : Nat → Location → List (List UInt8) → Except OsError Location
  | 0, _, _ => .error .tooManyLinks
  | links + 1, here, segments => fs.follow links here segments

theorem follow_eq (fs : FileSystem) (links : Nat) :
    fs.follow links = fs.followWith (fs.behindLink links) := by
  cases links <;> rfl

theorem follow_of_follows (h : fs.Follows links here segments there) :
    fs.follow links here segments = .ok there := by
  have hof : ∀ name : Name, Name.ofBytes? name.val = some name :=
    fun name => Name.ofBytes?_eq_some_iff.mpr rfl
  induction h with
  | done => rw [follow_eq, followWith]
  | closed hclosed _ ih =>
    rw [follow_eq] at ih ⊢
    simp only [followWith, hclosed, if_true, ih]
  | idle hat hidle _ ih =>
    rw [follow_eq] at ih ⊢
    simp only [followWith, entriesAt?_eq_some_iff.mp hat, if_pos hidle, ih]
  | up hat _ ih =>
    rw [follow_eq] at ih ⊢
    simp [followWith, entriesAt?_eq_some_iff.mp hat, ih]
  | @link _ _ _ _ name _ _ hat hlookup _ ih =>
    rw [entriesAt?_eq_some_iff] at hat
    rw [follow_eq]
    simp only [followWith, hat, if_neg name.not_special.1, if_neg name.not_special.2, hof, hlookup]
    exact ih
  | @enter _ _ _ _ name entry _ hat hlookup hentry _ ih =>
    rw [entriesAt?_eq_some_iff] at hat
    rw [follow_eq] at ih ⊢
    simp only [followWith, hat, if_neg name.not_special.1, if_neg name.not_special.2, hof, hlookup]
    cases entry with
    | link target => exact absurd rfl (hentry target)
    | _ => exact ih

theorem follow_eq_ok_iff :
    fs.follow links here segments = .ok there ↔ fs.Follows links here segments there :=
  ⟨follows_of_follow, follow_of_follows⟩

/-- **A path that can be followed leads to the same location after a fresh name has been put.** -/
theorem follow_put (hfresh : fs.Fresh location name) (hentry : entry.Ordered)
    (h : fs.follow links here segments = .ok there) :
    (fs.put location name entry hentry).follow links here segments = .ok there := by
  rw [follow_eq_ok_iff] at h ⊢
  induction h with
  | done => exact .done
  | closed hclosed _ ih => exact .closed (entryAt?_put_of_closed hfresh hentry hclosed) ih
  | idle hat hidle _ ih =>
    obtain ⟨later, hlater, -⟩ := entriesAt?_put hfresh hentry hat
    exact .idle hlater hidle ih
  | up hat _ ih =>
    obtain ⟨later, hlater, -⟩ := entriesAt?_put hfresh hentry hat
    exact .up hlater ih
  | link hat hlookup _ ih =>
    obtain ⟨later, hlater, hext⟩ := entriesAt?_put hfresh hentry hat
    obtain ⟨_, hlookup', halike⟩ := hext _ _ hlookup
    cases halike
    exact .link hlater hlookup' ih
  | enter hat hlookup hnolink _ ih =>
    obtain ⟨later, hlater, hext⟩ := entriesAt?_put hfresh hentry hat
    obtain ⟨_, hlookup', halike⟩ := hext _ _ hlookup
    refine .enter hlater hlookup' (fun target => ?_) ih
    cases halike with
    | link target => exact absurd rfl (hnolink target)
    | _ => simp

theorem follow_of_append_idle {idle : List UInt8} (hidle : idle = [] ∨ idle = [46])
    (h : fs.follow links here (segments ++ [idle]) = .ok there) :
    fs.follow links here segments = .ok there := by
  rw [follow_eq_ok_iff] at h ⊢
  generalize hall : segments ++ [idle] = all at h
  induction h generalizing segments with
  | done => simp at hall
  | closed hclosed hrest ih =>
    cases segments with
    | nil =>
      obtain ⟨-, rfl⟩ := List.cons.inj hall
      exact hrest
    | cons first others =>
      obtain ⟨rfl, hothers⟩ := List.cons.inj hall
      exact .closed hclosed (ih hothers)
  | @idle _ _ _ _ segment rest hat hsegment hrest ih =>
    cases segments with
    | nil =>
      obtain ⟨-, rfl⟩ := List.cons.inj hall
      exact hrest
    | cons first others =>
      obtain ⟨rfl, hothers⟩ := List.cons.inj hall
      exact .idle hat hsegment (ih hothers)
  | up hat _ ih =>
    cases segments with
    | nil => exact absurd (List.cons.inj hall).1 (by rcases hidle with rfl | rfl <;> simp)
    | cons first others =>
      obtain ⟨rfl, hothers⟩ := List.cons.inj hall
      exact .up hat (ih hothers)
  | @link _ _ _ _ name _ _ hat hlookup _ ih =>
    cases segments with
    | nil => exact absurd ((List.cons.inj hall).1 ▸ hidle) name.not_special.1
    | cons first others =>
      obtain ⟨rfl, rfl⟩ := List.cons.inj hall
      exact .link hat hlookup (ih (List.append_assoc _ _ _))
  | @enter _ _ _ _ name _ _ hat hlookup hnolink _ ih =>
    cases segments with
    | nil => exact absurd ((List.cons.inj hall).1 ▸ hidle) name.not_special.1
    | cons first others =>
      obtain ⟨rfl, hothers⟩ := List.cons.inj hall
      exact .enter hat hlookup hnolink (ih hothers)

/-! ### Paths that lead somewhere -/

theorem refusal?_of_stat {path : Path} (h : fs.stat path = .ok entry) : path.refusal? = none := by
  unfold stat resolve at h
  split at h
  · cases h
  · rename_i hresolve
    split at hresolve
    · cases hresolve
    · assumption

theorem ordered_of_stat {path : Path} (h : fs.stat path = .ok entry) : entry.Ordered := by
  unfold stat at h
  split at h
  · cases h
  · split at h
    · rename_i hentry
      cases h
      have htop : (Entry.directory fs.entries).Ordered := fs.ordered
      exact htop.below? hentry
    · cases h

end FileSystem

theorem Path.bytes_ne_nil_of_refusal? {path : Path} (h : path.refusal? = none) :
    path.bytes ≠ [] := by
  intro hempty
  simp [refusal?, hempty] at h

theorem Path.length_le_of_refusal? {path : Path} (h : path.refusal? = none) :
    path.bytes.length ≤ maxPathLength := by
  apply Nat.not_lt.mp
  intro hlong
  simp only [refusal?, if_pos hlong] at h
  split at h
  · cases h
  · split at h <;> cases h

end SchemaEnums
