import SchemaEnums.FileSystem.Basic

/-!
# Where a path leads

A path is followed segment by segment, from the top if it starts with a slash and from the working
directory otherwise.  Each step needs a directory to stand in, and an open one unless the segment is
empty; `..` goes to the directory that physically contains it, and stays at the top there; a
symbolic link is replaced by its target, which is followed from the directory of the link.  Following
more than `maxLinks` links fails, and that is why every path is followed to an end.

* `FileSystem.resolve`: the location a path leads to, links at its end included.
* `FileSystem.resolveParent`: the directory that its last segment stands in, and that segment.
-/

namespace SchemaEnums

/-- How many bytes a path can have. -/
def maxPathLength : Nat := 4095

/-- How many links are followed for one path. -/
def maxLinks : Nat := 40

/-- The segments of a path, as bytes. -/
def Path.segments (path : Path) : List (List UInt8) :=
  path.bytes.splitOn 47

/-- Where a path starts from, seen from the directory `here`. -/
def Path.start (path : Path) (here : Location) : Location :=
  if path.bytes.head? = some 47 then [] else here

/-- A path that is too strange to be followed: one with a zero byte, an empty one, or one that is
too long. -/
def Path.refusal? (path : Path) : Option OsError :=
  if 0 ∈ path.bytes then some .zeroByte
  else if path.bytes = [] then some .notFound
  else if path.bytes.length > maxPathLength then some .nameTooLong
  else none

namespace FileSystem

/-- Follows segments from the directory `here`; where a link is met, `behindLink` goes on with the
segments of its target and the others. -/
def followWith (fs : FileSystem)
    (behindLink : Location → List (List UInt8) → Except OsError Location) (here : Location)
    (segments : List (List UInt8)) : Except OsError Location :=
  match segments with
  | [] => .ok here
  | segment :: rest =>
    match fs.entryAt? here with
    | some (.closedDirectory refusal) =>
      if segment = [] then fs.followWith behindLink here rest else .error refusal
    | some (.directory entries) =>
      if segment = [] ∨ segment = [46] then fs.followWith behindLink here rest
      else if segment = [46, 46] then fs.followWith behindLink here.dropLast rest
      else
        match Name.ofBytes? segment with
        | none => .error .nameTooLong
        | some name =>
          match entries.lookup name with
          | none => .error .notFound
          | some (.link target) => behindLink (target.start here) (target.segments ++ rest)
          | some _ => fs.followWith behindLink (here ++ [name]) rest
    | _ => .error .notADirectory

/-- Follows segments from a directory, with at most `links` links on the way. -/
def follow (fs : FileSystem) (links : Nat) :
    Location → List (List UInt8) → Except OsError Location :=
  match links with
  | 0 => fs.followWith fun _ _ => .error .tooManyLinks
  | links + 1 => fs.followWith (fs.follow links)

/-- The location a path leads to. -/
def resolve (fs : FileSystem) (path : Path) : Except OsError Location :=
  match path.refusal? with
  | some error => .error error
  | none => fs.follow maxLinks (path.start fs.workingDir) path.segments

/-- The directory that the last segment of a path stands in, and that segment. -/
def resolveParent (fs : FileSystem) (path : Path) :
    Except OsError (Location × List UInt8) :=
  match path.refusal? with
  | some error => .error error
  | none =>
    match fs.follow maxLinks (path.start fs.workingDir) path.segments.dropLast with
    | .error error => .error error
    | .ok location =>
      match fs.openDirectory location with
      | .error error => .error error
      | .ok _ => .ok (location, path.segments.getLast?.getD [])

/-- What a path leads to. -/
def stat (fs : FileSystem) (path : Path) : Except OsError Entry :=
  match fs.resolve path with
  | .error error => .error error
  | .ok location =>
    match fs.entryAt? location with
    | some entry => .ok entry
    | none => .error .notFound

end FileSystem

end SchemaEnums
