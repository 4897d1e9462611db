import SchemaEnums.Discovery
import SchemaEnums.Loading
import SchemaEnums.Output
import SchemaEnums.Report

/-!
# The generator

A `Generator` knows where the schemas are and where the declarations go.  `Generator.run` finds the
schema files, extracts their enums, checks the names, and writes one file with all declarations; the
file system is touched by the last step only.
-/

namespace SchemaEnums

/-- Whether a text is the name of a file, and not a path to one. -/
def PlainName.Plain (text : String) : Prop :=
  text ∉ ["", ".", ".."] ∧ '/' ∉ text.toList ∧ '\\' ∉ text.toList

instance (text : String) : Decidable (PlainName.Plain text) := by
  unfold PlainName.Plain
  infer_instance

/-- The name of a file. -/
abbrev PlainName := { text : String // PlainName.Plain text }

namespace PlainName

/-- The name with the given text, if it is plain. -/
def ofText? (text : String) : Option PlainName :=
  if h : Plain text then some ⟨text, h⟩ else none

/-- The message for a text that is no plain name. -/
def refusal (text : String) : String :=
  "Output file name must be a plain file name, but got `" ++ text ++ "`"

end PlainName

/-- The output's name if none is given. -/
def defaultFileName : String := "types.ts"

/-- What to generate from what. -/
structure Generator where
  inputDir : Path
  outputDir : Path
  fileName : PlainName
  discovery : DiscoveryPolicy
  duplicates : DuplicatePolicy

/-- What a run has done. -/
inductive Outcome where
  /-- The output has been written. -/
  | written (path : Path) (enums : Nat)
  /-- There was nothing to write. -/
  | noEnums
deriving DecidableEq, Repr

/-- Why a run has failed. -/
inductive RunError where
  | file (error : FileError)
  /-- Names are repeated, and must not be. -/
  | duplicates (duplicates : List Duplicate)
  /-- The output cannot be written. -/
  | output (path : Path) (error : ReplaceError)

/-- Everything that a run leaves behind. -/
structure Run where
  result : Except RunError Outcome
  events : List Event
  fileSystem : FileSystem

/-- The report of a file that holds no document. -/
def LoadError.report : LoadError → Report
  | unreadable path fault =>
    let failed (verb : String) := "failed to " ++ verb ++ " file `" ++ path.text ++ "`"
    match fault with
    | .unopened error => ⟨failed "open", [error.message]⟩
    | .directory => ⟨failed "read from", [OsError.isADirectory.message]⟩
    | .notUtf8 => ⟨failed "read from", ["stream did not contain valid UTF-8"]⟩
  | notJson path error => ⟨"Unable to parse JSON in `" ++ path.text ++ "`", [error.message]⟩

/-- The report of a file whose enums cannot be declared. -/
def FileError.report : FileError → Report
  | load error => error.report
  | invalidSchema path error => ⟨"Invalid schema in `" ++ path.text ++ "`", [error.message]⟩

/-- The report of a failed run. -/
def RunError.report : RunError → Report
  | file error => error.report
  | duplicates names => ⟨Duplicate.message names, []⟩
  | output path error =>
    ⟨"Unable to write the generated enums to `" ++ path.text ++ "`",
      match error with
      | .noTemporary dir error =>
        ["Unable to create a temporary file in `" ++ dir.text ++ "`", error.message]
      | .notWritten temporary error =>
        ["Unable to write `" ++ temporary.text ++ "`", error.message]
      | .notRenamed error => [error.message]⟩

namespace Generator

/-- The generator with the given settings, or the file name that is no plain one. -/
def create (inputDir outputDir : Path) (fileName : Option String)
    (discovery : Option DiscoveryPolicy) (duplicates : Option DuplicatePolicy) :
    Except String Generator :=
  let name := fileName.getD defaultFileName
  match PlainName.ofText? name with
  | none => .error name
  | some plain =>
    .ok ⟨inputDir, outputDir, plain, discovery.getD .default, duplicates.getD .default⟩

/-- Where the declarations go. -/
def outputPath (generator : Generator) : Path :=
  generator.outputDir.join generator.fileName.val

/-- What the duplicate policy says about declarations: the warnings it gives, or that it refuses
them. -/
def checkNames (policy : DuplicatePolicy) (declarations : List Declaration) :
    Except RunError (List Event) :=
  match policy with
  | .allow => .ok []
  | .warn => .ok ((Duplicate.ofDeclarations declarations).map .repeatedName)
  | .deny =>
    match Duplicate.ofDeclarations declarations with
    | [] => .ok []
    | duplicates => .error (.duplicates duplicates)

/-- The events of a scan, with a warning behind them if a part of the tree was left out. -/
def scanEvents (discovery : Discovery) : List Event :=
  discovery.events
    ++ if discovery.isComplete then [] else [.incomplete discovery.errors.length]

/-- Writes declarations, of which there are some. -/
def write (generator : Generator) (fs : FileSystem) (files : Nat)
    (declarations : List Declaration) : Run :=
  let path := generator.outputPath
  match checkNames generator.duplicates declarations with
  | .error error => ⟨.error error, [], fs⟩
  | .ok warnings =>
    match fs.replaceFile generator.outputDir path (Declaration.render declarations).toUTF8 with
    | (.error error, fs) => ⟨.error (.output path error), warnings, fs⟩
    | (.ok (), fs) =>
      ⟨.ok (.written path declarations.length),
        warnings ++ [.generated path declarations.length files], fs⟩

/-- Generates the declarations. -/
def run (generator : Generator) (fs : FileSystem) : Run :=
  let discovery := Discovery.scan fs generator.inputDir generator.discovery
  let loading := Loading.files fs discovery.files
  let before : List Event :=
    .started generator.inputDir generator.outputPath generator.discovery generator.duplicates
      :: scanEvents discovery ++ loading.events
  match loading.result with
  | .error error => ⟨.error (.file error), before, fs⟩
  | .ok [] => ⟨.ok .noEnums, before ++ [.noEnums discovery.files.length], fs⟩
  | .ok declarations =>
    let written := generator.write fs discovery.files.length declarations
    { written with events := before ++ written.events }

end Generator

end SchemaEnums
