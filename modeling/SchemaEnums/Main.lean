import SchemaEnums.CommandLine.Program
import SchemaEnums.FileSystem.Building

/-!
# The executable

The outer layer around `CommandLine.execute`.  It takes a picture of the directories that the
arguments name, runs the program on the picture, does for real what the run has done there, and prints
what there is to print.  The one thing that a run can have done is to replace a file, and that is done
in the steps of `FileSystem.replaceFile`, with the temporary name that the picture has free.

A picture holds the content of files with the ending of schemas only.  A link to a file is shown as
that file, any other link as one that cannot be read either.  What the system refuses to show is
closed in the picture, and a refused replacement is the failure of the run.
-/

open SchemaEnums

namespace SchemaEnums.Picture

/-- What the system says by an error. -/
def refusal : IO.Error → OsError
  | .noFileOrDirectory _ _ _ => .notFound
  | .permissionDenied _ _ _ => .accessDenied
  | error => .other (toString error)

/-! ### Taking a picture -/

/-- What a real entry that is no directory looks like. -/
def leaf (entry : IO.FS.DirEntry) : IO { picture : Entry // picture.Ordered } := do
  try
    if (← entry.path.metadata).type == .dir then return ⟨.link ⟨"."⟩, trivial⟩
    if !Path.endsLikeSchema entry.fileName.toList then return ⟨.file ⟨#[]⟩, trivial⟩
    return ⟨.file (← IO.FS.readBinFile entry.path), trivial⟩
  catch error => return ⟨.closedFile (refusal error), trivial⟩

/-- Whether a real entry is a directory, links not followed. -/
def isDirectory (entry : IO.FS.DirEntry) : IO Bool := do
  let .ok metadata ← entry.path.symlinkMetadata.toBaseIO | return false
  return metadata.type == .dir

/-- Adds real entries to the directory at a location of a picture. -/
partial def addEntries (fs : FileSystem) (location : Location) (entries : Array IO.FS.DirEntry) :
    IO FileSystem := do
  let mut fs := fs
  for entry in entries do
    if let some name := Name.ofBytes? entry.fileName.toByteArray.data.toList then
      if ← isDirectory entry then
        match ← entry.path.readDir.toBaseIO with
        | .ok inner =>
          fs ← addEntries (fs.put location name (.directory []) trivial) (location ++ [name]) inner
        | .error error =>
          fs := fs.put location name (.closedDirectory (refusal error)) trivial
      else
        let picture ← leaf entry
        fs := fs.put location name picture.val picture.property
  return fs

/-- Closes the directory at a location, unless it is the top. -/
def close (fs : FileSystem) (location : Location) (error : OsError) : FileSystem :=
  match location.getLast? with
  | some name => fs.put location.dropLast name (.closedDirectory error) trivial
  | none => fs

/-- Adds what a path leads to, if anything. -/
def add (fs : FileSystem) (path : Path) : IO FileSystem := do
  let place := (← IO.currentDir) / path.text
  if path.text.isEmpty || !(← place.pathExists) then return fs
  if ← place.isDir then
    let .ok (fs, location) := fs.makeDirectory path | return fs
    match ← place.readDir.toBaseIO with
    | .ok entries => addEntries fs location entries
    | .error error => return close fs location (refusal error)
  else
    let .ok fs := fs.writeFile path ⟨#[]⟩ | return fs
    return fs

/-- The picture of what the arguments name. -/
def ofArguments (arguments : CommandLine.Arguments) : IO FileSystem := do
  let here : Path := ⟨(← IO.currentDir).toString⟩
  let .ok (fs, location) := FileSystem.empty.makeDirectory here | return .empty
  let fs ← add { fs with workingDir := location } arguments.outputDir.orHere
  add fs arguments.inputDir

/-! ### Doing for real what a run has done -/

/-- Writes a text to a real temporary file, and gives the file the path `target`. -/
def fill (file : IO.FS.Handle) (temporary target : Path) (text : String) :
    IO (Except ReplaceError Unit) := do
  try
    file.putStr text
    file.flush
  catch error => return .error (.notWritten temporary (refusal error))
  try
    IO.FS.rename temporary.text target.text
    return .ok ()
  catch error => return .error (.notRenamed (refusal error))

/-- Puts a text at the real path `target`, by way of a temporary file in `dir` that a picture has room
for. -/
def replaceFile (picture : FileSystem) (dir target : Path) (text : String) :
    IO (Except ReplaceError Unit) := do
  match picture.temporaryPlace dir.orHere with
  | .error error => return .error (.noTemporary dir.orHere error)
  | .ok (_, name) =>
    let temporary := dir.orHere.join (Lossy.decode name.val)
    match ← (IO.FS.Handle.mk temporary.text .writeNew).toBaseIO with
    | .error error => return .error (.noTemporary dir.orHere (refusal error))
    | .ok file =>
      let replaced ← fill file temporary target text
      if !replaced.isOk then discard (IO.FS.removeFile temporary.text).toBaseIO
      return replaced

/-- The response to a run whose output the system refuses for real.  The log is that of the run up to
where it tells of the output. -/
def refused (threshold : CommandLine.Threshold) (path : Path) (enums : Nat) (error : ReplaceError)
    (log : List Record) : CommandLine.Response :=
  let report := RunError.report (.output path error)
  let generated := (Event.generated path enums 0).record.message
  let failed := (CommandLine.Notice.failed report).record
  .ran (.error report) (log.takeWhile (·.message ≠ generated)
    ++ [failed].filter fun record => threshold.admits record.level)

/-- Runs the program on a picture, and does for real what it has done there. -/
def run (arguments : List String) (logSetting : Option String)
    (settings : CommandLine.Arguments) : IO CommandLine.Response := do
  let before ← ofArguments settings
  let (response, behind) := CommandLine.execute arguments logSetting before
  let .ran (.ok (.written path enums)) log := response | return response
  let .ok text := behind.readText path | return response
  match ← replaceFile before settings.outputDir path text with
  | .ok () => return response
  | .error error => return refused (.ofSetting logSetting) path enums error log

end SchemaEnums.Picture

/-- Runs the program on the real file system. -/
def main (arguments : List String) : IO UInt32 := do
  let logSetting ← IO.getEnv "ENUMGEN_LOG"
  let response ← match CommandLine.parse arguments with
    | .ok (.run settings) => Picture.run arguments logSetting settings
    | _ => pure (CommandLine.execute arguments logSetting .empty).1
  match response with
  | .refused error => IO.eprintln error.message
  | .explained text => IO.print text
  | .ran _ log =>
    for record in log do
      IO.eprintln record.line
  return response.exitCode.toUInt32
