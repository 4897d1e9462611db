import SchemaEnums.FileSystem.Resolution

/-!
# Building a file system

Operations that make directories, files and links, and remove them.  Missing parent directories are
made on the way.
-/

namespace SchemaEnums.FileSystem

/-- Makes sure that segments lead to a directory, starting from the directory `here`. -/
def makeBelow (fs : FileSystem) (here : Location) :
    List (List UInt8) → Except OsError (FileSystem × Location)
  | [] =>
    match fs.openDirectory here with
    | .ok _ => .ok (fs, here)
    | .error error => .error error
  | segment :: rest =>
    match fs.follow maxLinks here [segment] with
    | .ok there => fs.makeBelow there rest
    | .error .notFound =>
      match Name.ofBytes? segment with
      | some name =>
        (fs.put here name (.directory []) trivial).makeBelow (here ++ [name]) rest
      | none => .error .nameTooLong
    | .error error => .error error

/-- Makes sure that a path leads to a directory. -/
def makeDirectory (fs : FileSystem) (path : Path) : Except OsError (FileSystem × Location) :=
  fs.makeBelow (path.start fs.workingDir) path.segments

/-- Makes sure that a path has a directory to stand in; also returns its name there. -/
def makeParent (fs : FileSystem) (path : Path) : Except OsError (FileSystem × Location × Name) :=
  match fs.makeBelow (path.start fs.workingDir) path.segments.dropLast with
  | .error error => .error error
  | .ok (fs, location) =>
    match Name.ofBytes? (path.segments.getLast?.getD []) with
    | some name => .ok (fs, location, name)
    | none => .error .nameTooLong

/-- The place where a file of a name in a directory is written: behind links that the name stands
for. -/
def writingPlace (fs : FileSystem) (links : Nat) (here : Location) (name : Name) :
    Except OsError (Location × Name) :=
  match fs.openDirectory here with
  | .error error => .error error
  | .ok entries =>
    match entries.lookup name with
    | some (.link target) =>
      match links with
      | 0 => .error .tooManyLinks
      | links + 1 =>
        match fs.follow links (target.start here) target.segments.dropLast,
            Name.ofBytes? (target.segments.getLast?.getD []) with
        | .error error, _ => .error error
        | .ok _, none => .error .nameTooLong
        | .ok there, some last => fs.writingPlace links there last
    | some (.directory _) => .error .isADirectory
    | some (.closedDirectory _) => .error .isADirectory
    | some (.closedFile refusal) => .error refusal
    | _ => .ok (here, name)

/-- Writes a file. -/
def writeFile (fs : FileSystem) (path : Path) (content : ByteArray) : Except OsError FileSystem :=
  match fs.makeParent path with
  | .error error => .error error
  | .ok (fs, here, name) =>
    match fs.writingPlace maxLinks here name with
    | .error error => .error error
    | .ok (there, name) => .ok (fs.put there name (.file content) trivial)

/-- Makes a symbolic link. -/
def makeLink (fs : FileSystem) (path : Path) (target : Path) : Except OsError FileSystem :=
  match fs.makeParent path with
  | .error error => .error error
  | .ok (fs, here, name) => .ok (fs.put here name (.link target) trivial)

/-- Removes what a path names, with all that is below it; a link is removed and not followed. -/
def remove (fs : FileSystem) (path : Path) : Except OsError FileSystem :=
  match fs.resolveParent path with
  | .error error => .error error
  | .ok (location, bytes) =>
    match Name.ofBytes? bytes with
    | some name => .ok (fs.erase location name)
    | none => .error .notFound

/-- Makes `count` directories of one name, each inside of the one before. -/
def nest (fs : FileSystem) (here : Location) (name : Name) : Nat → FileSystem
  | 0 => fs
  | count + 1 =>
    match (fs.entriesAt? here).bind (·.lookup name) with
    | some _ => fs.nest (here ++ [name]) name count
    | none => (fs.put here name (.directory []) trivial).nest (here ++ [name]) name count

end SchemaEnums.FileSystem
