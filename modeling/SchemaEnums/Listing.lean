import SchemaEnums.FileSystem.Content

/-!
# What a schema tree shows

`Listing.ofRoot` is the walk below a directory, depth first, the entries of each directory in byte
order.  It does not depend on any policy: it lists everything worth mentioning, the failures among
it, in the order of the walk.

Links are leaves, whatever they point to; only the root is followed.  The system refuses to list a
directory that is closed, and any directory with a path that is too long (`Listing.refusal?`); the
walk mentions the refusal and goes on behind the directory.
-/

namespace SchemaEnums

/-- Why a directory cannot be listed. -/
inductive ListingFault where
  /-- The root leads nowhere. -/
  | noMetadata (error : OsError)
  /-- The root is no directory. -/
  | notADirectory
  /-- The system refuses to list the directory. -/
  | refused (error : OsError)
deriving DecidableEq, Repr

/-- A directory that cannot be listed. -/
structure ListingError where
  path : Path
  fault : ListingFault
deriving DecidableEq, Repr

namespace ListingError

/-- What happened. -/
def message (error : ListingError) : String :=
  "failed to list `" ++ error.path.text ++ "`"

/-- Why it happened. -/
def cause (error : ListingError) : String :=
  match error.fault with
  | .noMetadata _ => "failed to query metadata of file `" ++ error.path.text ++ "`"
  | .notADirectory => "not a directory"
  | .refused os => "IO error for operation on " ++ error.path.text ++ ": " ++ os.message

end ListingError

/-- Something worth mentioning in a schema tree. -/
inductive Sighting where
  /-- A schema file. -/
  | schema (path : Path)
  /-- What would be a schema file, if its path were text; bytes that are none are shown replaced. -/
  | notUtf8 (shown : Path)
  /-- A directory that cannot be listed. -/
  | unlisted (error : ListingError)
deriving DecidableEq, Repr

namespace Listing

/-- What an entry that is no directory shows. -/
def ofLeaf (path : List UInt8) : List Sighting :=
  match Path.ofBytes? path with
  | some path => if Path.endsLikeSchema path.text.toList then [.schema path] else []
  | none =>
    let shown := Lossy.decode path
    if Path.endsLikeSchema shown.toList then [.notUtf8 ⟨shown⟩] else []

/-- Why the system refuses to list the directory at a path, if it does; the path comes first. -/
def refusal? (path : List UInt8) : Entry → Option OsError
  | .directory _ => if path.length > maxPathLength then some .nameTooLong else none
  | .closedDirectory refusal =>
    some (if path.length > maxPathLength then .nameTooLong else refusal)
  | _ => none

/-- The failure to list the directory at a path. -/
def refused (path : List UInt8) (error : OsError) : Sighting :=
  .unlisted ⟨⟨Lossy.decode path⟩, .refused error⟩

mutual

/-- What the entry at a path shows. -/
def ofEntry (path : List UInt8) (entry : Entry) : List Sighting :=
  match refusal? path entry with
  | some error => [refused path error]
  | none =>
    match entry with
    | .directory entries => ofEntries path entries
    | _ => ofLeaf path

/-- What entries of the directory at a path show. -/
def ofEntries (dir : List UInt8) : List (Name × Entry) → List Sighting
  | [] => []
  | (name, entry) :: rest => ofEntry (joinWith 47 dir name.val) entry ++ ofEntries dir rest

end

/-- What the tree below a root shows. -/
def ofRoot (fs : FileSystem) (root : Path) : List Sighting :=
  match fs.stat root with
  | .error error => [.unlisted ⟨root, .noMetadata error⟩]
  | .ok (.directory entries) => ofEntries root.bytes entries
  | .ok (.closedDirectory refusal) => [.unlisted ⟨root, .refused refusal⟩]
  | .ok _ => [.unlisted ⟨root, .notADirectory⟩]

end Listing

end SchemaEnums
