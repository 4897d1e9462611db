import SchemaEnums.FileSystem.Error
import SchemaEnums.Path

/-!
# The file system

A file system is a tree below one directory, its top, together with the working directory that
relative paths start from.  A directory lists its entries in ascending byte order of their names,
and every name is one the system allows; both are part of the type, so no operation can lose them.
A file or a directory may be closed: the system refuses to open it, for a reason that the entry
carries.

* `Name`: a name that an entry can have.
* `Entry`: a file, a symbolic link, or a directory with its entries; or one that is closed.
* `FileSystem.entryAt?`: what stands at a location, a list of names from the top.
* `FileSystem.update`: a change to the entries of the directory at a location.
-/

namespace SchemaEnums

/-- Whether an entry can have a name: one to 255 bytes, none of them zero or a slash, and neither of
the two names that every directory has already. -/
def Name.Allowed (bytes : List UInt8) : Prop :=
  bytes ∉ [[], [46], [46, 46]] ∧ 0 ∉ bytes ∧ 47 ∉ bytes ∧ bytes.length ≤ 255

instance (bytes : List UInt8) : Decidable (Name.Allowed bytes) := by
  unfold Name.Allowed
  infer_instance

/-- The name of an entry. -/
abbrev Name := { bytes : List UInt8 // Name.Allowed bytes }

/-- The name with the given bytes, if they are allowed. -/
def Name.ofBytes? (bytes : List UInt8) : Option Name :=
  if h : Name.Allowed bytes then some ⟨bytes, h⟩ else none

/-- What an entry of a directory is. -/
inductive Entry where
  | file (content : ByteArray)
  | link (target : Path)
  | directory (entries : List (Name × Entry))
  /-- A file that the system refuses to open. -/
  | closedFile (refusal : OsError)
  /-- A directory that the system refuses to open: nothing in it can be listed or reached. -/
  | closedDirectory (refusal : OsError)

/-- Whether an entry is a directory, closed or not. -/
def Entry.isDirectory : Entry → Bool
  | .directory _ | .closedDirectory _ => true
  | .file _ | .link _ | .closedFile _ => false

/-- The entries of a directory. -/
abbrev Entries := List (Name × Entry)

mutual

/-- In every directory of an entry the names ascend. -/
def Entry.Ordered : Entry → Prop
  | .directory entries => Entries.Ordered entries
  | _ => True

/-- The names ascend, here and in every directory below. -/
def Entries.Ordered : List (Name × Entry) → Prop
  | [] => True
  | (name, entry) :: rest =>
    entry.Ordered ∧ (∀ other ∈ rest, name.val < other.1.val) ∧ Entries.Ordered rest

end

theorem Entry.ordered_file (content : ByteArray) : (Entry.file content).Ordered := trivial

theorem Entry.not_isDirectory_file (content : ByteArray) : ¬ (Entry.file content).isDirectory :=
  Bool.false_ne_true

namespace Entries

/-- Gives a name a new meaning, in its place in the order. -/
def put (name : Name) (entry : Entry) : Entries → Entries
  | [] => [(name, entry)]
  | (n, e) :: rest =>
    if n = name then (name, entry) :: rest
    else if name.val < n.val then (name, entry) :: (n, e) :: rest
    else (n, e) :: put name entry rest

/-- The entries without those of a name. -/
def erase (name : Name) (entries : Entries) : Entries :=
  entries.filter (·.1 ≠ name)

theorem Ordered.all_ordered {entries : Entries} (h : Ordered entries) :
    ∀ e ∈ entries, e.2.Ordered := by
  induction entries with
  | nil => simp
  | cons head rest ih =>
    obtain ⟨name, entry⟩ := head
    intro e he
    rcases List.mem_cons.mp he with rfl | he
    · exact h.1
    · exact ih h.2.2 e he

theorem Ordered.of_sublist {entries part : Entries} (h : Ordered entries)
    (hpart : part.Sublist entries) : Ordered part := by
  induction hpart with
  | slnil => exact h
  | cons head _ ih => exact ih h.2.2
  | cons_cons head hsub ih =>
    exact ⟨h.1, fun other hother => h.2.1 other (hsub.subset hother), ih h.2.2⟩

theorem Ordered.erase {entries : Entries} (h : Ordered entries) (name : Name) :
    Ordered (erase name entries) :=
  h.of_sublist List.filter_sublist

theorem mem_put {name : Name} {entry : Entry} {entries : Entries} {x : Name × Entry}
    (h : x ∈ put name entry entries) : x = (name, entry) ∨ x ∈ entries := by
  induction entries with
  | nil => simpa [put] using h
  | cons head rest ih =>
    obtain ⟨n, e⟩ := head
    unfold put at h
    split at h
    · rcases List.mem_cons.mp h with rfl | h
      · exact Or.inl rfl
      · exact Or.inr (List.mem_cons_of_mem _ h)
    · split at h
      · simpa using h
      · rcases List.mem_cons.mp h with rfl | h
        · simp
        · rcases ih h with rfl | h
          · exact Or.inl rfl
          · exact Or.inr (List.mem_cons_of_mem _ h)

theorem Ordered.put {entries : Entries} (h : Ordered entries) (name : Name) {entry : Entry}
    (hentry : entry.Ordered) : Ordered (put name entry entries) := by
  induction entries with
  | nil => exact ⟨hentry, by simp, trivial⟩
  | cons head rest ih =>
    obtain ⟨n, e⟩ := head
    unfold Entries.put
    split
    · rename_i heq
      exact ⟨hentry, heq ▸ h.2.1, h.2.2⟩
    · rename_i hne
      split
      · rename_i hlt
        refine ⟨hentry, fun other hother => ?_, h⟩
        rcases List.mem_cons.mp hother with rfl | hother
        · exact hlt
        · exact List.lt_trans hlt (h.2.1 other hother)
      · rename_i hge
        refine ⟨h.1, fun other hother => ?_, ih h.2.2⟩
        rcases mem_put hother with rfl | hother
        · exact Std.lt_of_le_of_ne (List.not_lt.mp hge) fun heq => hne (Subtype.ext heq)
        · exact h.2.1 other hother

end Entries

/-- The names that lead from the top to an entry; the top itself has none. -/
abbrev Location := List Name

namespace Entry

/-- What stands below an entry at a location. -/
def below? (entry : Entry) : Location → Option Entry
  | [] => some entry
  | name :: rest =>
    match entry with
    | .directory entries =>
      match entries.lookup name with
      | some inner => inner.below? rest
      | none => none
    | _ => none

end Entry

namespace Entries

/-- Changes the entries of the directory at a location; without one there nothing changes. -/
def update (change : Entries → Entries) : Location → Entries → Entries
  | [], entries => change entries
  | name :: rest, entries =>
    entries.map fun e =>
      if e.1 = name then
        match e.2 with
        | .directory inner => (e.1, .directory (update change rest inner))
        | _ => e
      else e

theorem Ordered.map {entries : Entries} (h : Ordered entries) (f : Name × Entry → Name × Entry)
    (hname : ∀ e, (f e).1 = e.1) (hentry : ∀ e, e.2.Ordered → (f e).2.Ordered) :
    Ordered (entries.map f) := by
  induction entries with
  | nil => exact h
  | cons head rest ih =>
    obtain ⟨name, entry⟩ := head
    simp only [List.map_cons]
    have hhead := hname (name, entry)
    have hsub := hentry (name, entry) h.1
    generalize hf : f (name, entry) = image at hhead hsub
    obtain ⟨n, e⟩ := image
    simp only at hhead
    subst hhead
    refine ⟨hsub, fun other hother => ?_, ih h.2.2⟩
    obtain ⟨before, hbefore, rfl⟩ := List.mem_map.mp hother
    rw [hname]
    exact h.2.1 before hbefore

theorem Ordered.update {change : Entries → Entries}
    (hchange : ∀ entries, Ordered entries → Ordered (change entries)) :
    ∀ (location : Location) {entries : Entries}, Ordered entries →
      Ordered (update change location entries)
  | [], _, h => hchange _ h
  | name :: rest, entries, h => by
    unfold Entries.update
    refine h.map _ (fun e => ?_) (fun e he => ?_)
    · split
      · split <;> rfl
      · rfl
    · split
      · split
        · rename_i inner hinner
          rw [hinner] at he
          exact Ordered.update hchange rest he
        · exact he
      · exact he

end Entries

/-- A file system: the entries of its top, and where the working directory is. -/
structure FileSystem where
  entries : Entries
  ordered : Entries.Ordered entries
  workingDir : Location

namespace FileSystem

/-- The file system without any entry. -/
def empty : FileSystem := ⟨[], trivial, []⟩

/-- What stands at a location. -/
def entryAt? (fs : FileSystem) (location : Location) : Option Entry :=
  (Entry.directory fs.entries).below? location

/-- The entries of the directory at a location. -/
def entriesAt? (fs : FileSystem) (location : Location) : Option Entries :=
  match fs.entryAt? location with
  | some (.directory entries) => some entries
  | _ => none

/-- Opens the directory at a location. -/
def openDirectory (fs : FileSystem) (location : Location) : Except OsError Entries :=
  match fs.entryAt? location with
  | some (.directory entries) => .ok entries
  | some (.closedDirectory refusal) => .error refusal
  | _ => .error .notADirectory

/-- Gives a name in the directory at a location a new meaning. -/
def put (fs : FileSystem) (location : Location) (name : Name) (entry : Entry)
    (h : entry.Ordered) : FileSystem :=
  ⟨Entries.update (Entries.put name entry) location fs.entries,
    .update (fun _ ordered => ordered.put name h) location fs.ordered, fs.workingDir⟩

/-- Removes a name from the directory at a location, with all that is below it. -/
def erase (fs : FileSystem) (location : Location) (name : Name) : FileSystem :=
  ⟨Entries.update (Entries.erase name) location fs.entries,
    .update (fun _ ordered => ordered.erase name) location fs.ordered, fs.workingDir⟩

end FileSystem

end SchemaEnums
