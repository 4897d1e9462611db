import SchemaEnums.Generator
import SchemaEnums.Text.ControlSequence
import SchemaEnums.Text.Line

/-!
# The arguments of the command line

Arguments are read from left to right.  An option that takes a value, given without one, stays
**pending** until the next argument that is not its value; only then it is checked.  So the first
problem in the order of the arguments is reported, except that an argument that cannot stand where
it stands is reported before a pending option is looked at.

* `Token.ofText`: what an argument looks like by itself.
* `Progress.step`: what it means behind the arguments before it.
* `parse`: what a whole command line asks for.
-/

namespace SchemaEnums.CommandLine

/-- An option that takes a value. -/
inductive Setting where
  | fileName
  | discovery
  | duplicates
deriving DecidableEq, Repr

namespace Setting

/-- All options that take a value. -/
def all : List Setting := [fileName, discovery, duplicates]

/-- The name of an option, without the dashes. -/
def name : Setting → String
  | fileName => "file-name"
  | discovery => "discovery"
  | duplicates => "duplicates"

/-- An option with a placeholder for its value. -/
def shown : Setting → String
  | fileName => "--file-name <FILE_NAME>"
  | discovery => "--discovery <DISCOVERY>"
  | duplicates => "--duplicates <DUPLICATES>"

end Setting

/-- Why a command line cannot be used. -/
inductive UsageError where
  | missingDirectories
  | unexpectedArgument (text : String)
  | unexpectedValue (option value : String)
  | missingValue (setting : Setting)
  | invalidValue (setting : Setting) (value : String)
  | repeated (setting : Setting)
deriving DecidableEq, Repr

/-- The message for a command line that cannot be used.  What the command line said is repeated
without its control sequences. -/
def UsageError.message : UsageError → String
  | missingDirectories => "error: the following required arguments were not provided:"
  | unexpectedArgument text =>
    "error: unexpected argument '" ++ ControlSequence.strip text ++ "' found"
  | unexpectedValue option value =>
    "error: unexpected value '" ++ ControlSequence.strip value ++ "' for '--" ++ option
      ++ "' found; no more were expected"
  | missingValue setting =>
    "error: a value is required for '" ++ setting.shown ++ "' but none was supplied"
  | invalidValue setting value =>
    "error: invalid value '" ++ ControlSequence.strip value ++ "' for '" ++ setting.shown ++ "'"
  | repeated setting =>
    "error: the argument '" ++ setting.shown ++ "' cannot be used multiple times"

/-- The first line of the message. -/
def UsageError.headline (error : UsageError) : String :=
  Line.first error.message

/-- The settings of a run. -/
structure Arguments where
  inputDir : Path
  outputDir : Path
  fileName : String
  discovery : DiscoveryPolicy
  duplicates : DuplicatePolicy
deriving DecidableEq, Repr

/-- What a command line asks for. -/
inductive Request where
  | run (arguments : Arguments)
  /-- An explanation, at length or not. -/
  | help (long : Bool)
  | version
deriving DecidableEq, Repr

/-- What an argument looks like. -/
inductive Token where
  /-- Two dashes: what follows are no options. -/
  | endOfOptions
  /-- Two dashes with a name, and perhaps a value behind an equals sign. -/
  | long (name : String) (value : Option String)
  /-- One dash with letters. -/
  | short (letters : List Char)
  | plain (text : String)
deriving DecidableEq, Repr

/-- What an argument looks like.  A single dash is plain. -/
def Token.ofText (text : String) : Token :=
  match text.toList with
  | ['-', '-'] => .endOfOptions
  | '-' :: '-' :: rest =>
    let name := rest.takeWhile (· ≠ '=')
    match rest.dropWhile (· ≠ '=') with
    | _ :: value => .long (.ofList name) (some (.ofList value))
    | [] => .long (.ofList name) none
  | '-' :: c :: letters => .short (c :: letters)
  | _ => .plain text

/-- What the arguments so far have said. -/
structure Progress where
  /-- The directories, in the order in which they were given. -/
  directories : List String := []
  fileName : Option String := none
  discovery : Option DiscoveryPolicy := none
  duplicates : Option DuplicatePolicy := none
  /-- An option that has not been checked, with its value if it has one by now. -/
  pending : Option (Setting × Option String) := none
  /-- Whether options have ended. -/
  ended : Bool := false
deriving DecidableEq, Repr

namespace Progress

/-- Gives an option a value. -/
def assign (progress : Progress) (setting : Setting) (value : Option String) :
    Except UsageError Progress :=
  match value with
  | none => .error (.missingValue setting)
  | some value =>
    match setting with
    | .fileName =>
      if progress.fileName.isSome then .error (.repeated setting)
      else .ok { progress with fileName := some value }
    | .discovery =>
      if progress.discovery.isSome then .error (.repeated setting)
      else
        match policy? setting value DiscoveryPolicy.ofName? with
        | .error error => .error error
        | .ok policy => .ok { progress with discovery := some policy }
    | .duplicates =>
      if progress.duplicates.isSome then .error (.repeated setting)
      else
        match policy? setting value DuplicatePolicy.ofName? with
        | .error error => .error error
        | .ok policy => .ok { progress with duplicates := some policy }
where
  /-- The policy that a value names; an empty value counts as none. -/
  policy? {α : Type} (setting : Setting) (value : String) (ofName? : String → Option α) :
      Except UsageError α :=
    if value = "" then .error (.missingValue setting)
    else
      match ofName? value with
      | some policy => .ok policy
      | none => .error (.invalidValue setting value)

/-- Checks the pending option. -/
def settle (progress : Progress) : Except UsageError Progress :=
  match progress.pending with
  | none => .ok progress
  | some (setting, value) => { progress with pending := none }.assign setting value

/-- A plain argument: the value of the pending option, or a directory. -/
def plain (progress : Progress) (text : String) : Except UsageError Progress :=
  match progress.ended, progress.pending with
  | false, some (setting, none) => .ok { progress with pending := some (setting, some text) }
  | _, _ =>
    if 2 ≤ progress.directories.length then .error (.unexpectedArgument text)
    else
      progress.settle.map fun progress =>
        { progress with directories := progress.directories ++ [text] }

/-- The first letter of a cluster decides: a known one ends the reading. -/
def short (progress : Progress) (letters : List Char) : Except UsageError Request :=
  match letters with
  | 'h' :: _ => progress.settle.map fun _ => .help false
  | 'V' :: _ => progress.settle.map fun _ => .version
  | c :: _ => .error (.unexpectedArgument (.ofList ['-', c]))
  | [] => .error (.unexpectedArgument "-")

/-- A long option: more progress, or the end of the reading. -/
def long (progress : Progress) (name : String) (value : Option String) :
    Except UsageError (Progress ⊕ Request) :=
  match Setting.all.find? (·.name = name), value with
  | some setting, none =>
    progress.settle.map fun progress => .inl { progress with pending := some (setting, none) }
  | some setting, some value =>
    match progress.settle with
    | .error error => .error error
    | .ok progress => (progress.assign setting (some value)).map .inl
  | none, value =>
    match flag? name, value with
    | none, _ => .error (.unexpectedArgument ("--" ++ name))
    | some _, some value => .error (.unexpectedValue name value)
    | some request, none => progress.settle.map fun _ => .inr request
where
  /-- What an option without a value asks for. -/
  flag? (name : String) : Option Request :=
    if name = "help" then some (.help true)
    else if name = "version" then some .version
    else none

/-- One more argument. -/
def step (progress : Progress) (text : String) : Except UsageError (Progress ⊕ Request) :=
  if progress.ended then (progress.plain text).map .inl
  else
    match Token.ofText text with
    | .endOfOptions => .ok (.inl { progress with ended := true })
    | .long name value => progress.long name value
    | .short letters => (progress.short letters).map .inr
    | .plain text => (progress.plain text).map .inl

/-- No more arguments. -/
def finish (progress : Progress) : Except UsageError Arguments :=
  match progress.settle with
  | .error error => .error error
  | .ok progress =>
    match progress.directories with
    | [input, output] =>
      .ok ⟨⟨input⟩, ⟨output⟩, progress.fileName.getD defaultFileName,
        progress.discovery.getD .default, progress.duplicates.getD .default⟩
    | _ => .error .missingDirectories

/-- The arguments behind those that have been read. -/
def readAll (progress : Progress) : List String → Except UsageError Request
  | [] => progress.finish.map .run
  | text :: rest =>
    match progress.step text with
    | .error error => .error error
    | .ok (.inl progress) => progress.readAll rest
    | .ok (.inr request) => .ok request

end Progress

/-- What a command line asks for. -/
def parse (arguments : List String) : Except UsageError Request :=
  Progress.readAll {} arguments

end SchemaEnums.CommandLine
