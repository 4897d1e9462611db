import SchemaEnums.FileSystem.Content

/-!
# Replacing a file as a whole

The content is written to a temporary file in the directory of the output first, which is then
renamed.  So the output is either the old one or all of the new one, and a failure leaves nothing
behind.

* `Output.freshName?`: a name for the temporary file that no entry of the directory has.
* `FileSystem.rename`: gives a file a new name, in place of whatever non-directory has it.
* `FileSystem.replaceFile`: the whole.  It returns the file system also if it fails.
-/

namespace SchemaEnums

namespace Output

/-- The name of the `n`-th temporary file. -/
def temporaryName (n : Nat) : List UInt8 :=
  let digits := Nat.toDigits 10 n
  (".enumgen".toList ++ List.replicate (6 - digits.length) '0' ++ digits ++ ".tmp".toList).flatMap
    String.utf8EncodeChar

/-- A temporary name that no entry has. -/
def freshName? (entries : Entries) : Option Name :=
  ((List.range (entries.length + 1)).filterMap fun n => Name.ofBytes? (temporaryName n)).find?
    fun name => (entries.lookup name).isNone

end Output

/-- Why a file cannot be replaced. -/
inductive ReplaceError where
  /-- There can be no temporary file in the directory. -/
  | noTemporary (dir : Path) (error : OsError)
  /-- The temporary file does not take the content, as a system without room for it says; the file
  systems here have room for everything. -/
  | notWritten (temporary : Path) (error : OsError)
  /-- The temporary file cannot take the place of the output. -/
  | notRenamed (error : OsError)
deriving DecidableEq, Repr

/-- A directory's path, the empty one standing for the working directory. -/
def Path.orHere (dir : Path) : Path :=
  if dir.text = "" then ⟨"."⟩ else dir

namespace FileSystem

/-- Where a temporary file can be made in the directory a path leads to: the directory's location
and a name that is free there. -/
def temporaryPlace (fs : FileSystem) (dir : Path) : Except OsError (Location × Name) :=
  if 0 ∈ dir.bytes then .error .zeroByte
  else if (joinWith 47 dir.bytes (Output.temporaryName 0)).length > maxPathLength then
    .error .nameTooLong
  else
    match fs.resolve dir with
    | .error error => .error error
    | .ok location =>
      match fs.openDirectory location with
      | .error error => .error error
      | .ok entries =>
        match Output.freshName? entries with
        | none => .error .noFreshName
        | some name => .ok (location, name)

/-- Gives the file `name` of the directory at a location the path `target`. -/
def rename (fs : FileSystem) (location : Location) (name : Name) (target : Path) :
    Except OsError FileSystem :=
  if 0 ∈ target.bytes then .error .invalidArgument
  else
    match fs.resolveParent target with
    | .error error => .error error
    | .ok (there, bytes) =>
      if bytes.length > 255 then .error .nameTooLong
      else
        match Name.ofBytes? bytes with
        | none => .error .isADirectory
        | some last =>
          if ((fs.entriesAt? there).bind (·.lookup last)).any Entry.isDirectory then
            .error .isADirectory
          else
            match (fs.entriesAt? location).bind (·.lookup name) with
            | some (.file content) =>
              .ok ((fs.erase location name).put there last (.file content)
                (Entry.ordered_file content))
            | _ => .error .notFound

/-- Puts a file with the given content at the path `target`, by way of a temporary file in
`dir`. -/
def replaceFile (fs : FileSystem) (dir target : Path) (content : ByteArray) :
    Except ReplaceError Unit × FileSystem :=
  let dir := dir.orHere
  match fs.temporaryPlace dir with
  | .error error => (.error (.noTemporary dir error), fs)
  | .ok (location, temporary) =>
    let created := fs.put location temporary (.file ⟨#[]⟩) (Entry.ordered_file _)
    let written := created.put location temporary (.file content) (Entry.ordered_file content)
    match written.rename location temporary target with
    | .error error => (.error (.notRenamed error), written.erase location temporary)
    | .ok renamed => (.ok (), renamed)

end FileSystem

end SchemaEnums
