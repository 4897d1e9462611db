import SchemaEnums.CommandLine.Arguments
import SchemaEnums.CommandLine.Help

/-!
# The program

`CommandLine.execute` is the whole program as a function: from its arguments, the log level asked
for and a file system to what it prints, what it logs, its exit code and the file system it
leaves.
-/

namespace SchemaEnums.CommandLine

/-- How much is logged: everything up to a level, or nothing. -/
abbrev Threshold := Option Level

/-- The threshold that a setting asks for; without one, or with an unknown one, it is `info`. -/
def Threshold.ofSetting (setting : Option String) : Threshold :=
  let name := (setting.getD "").toLower
  if name = "off" then none
  else if name = "error" then some .error
  else if name = "warn" then some .warn
  else if name = "debug" || name = "trace" then some .debug
  else some .info

/-- Whether a record of a level is logged. -/
def Threshold.admits (threshold : Threshold) (level : Level) : Bool :=
  match threshold with
  | none => false
  | some most => level.rank ≤ most.rank

/-- What the program itself adds to the events of a run. -/
inductive Notice where
  /-- The settings in use. -/
  | invoked (arguments : Arguments)
  /-- The output has been written. -/
  | done (path : Path) (enums : Nat)
  | nothingToWrite
  | failed (report : Report)
deriving DecidableEq, Repr

/-- The name of a discovery policy among the settings. -/
def discoverySetting : DiscoveryPolicy → String
  | .failOpen => "FailOpen"
  | .keepGoing => "Partial"

/-- The name of a duplicate policy among the settings. -/
def duplicatesSetting : DuplicatePolicy → String
  | .allow => "Allow"
  | .warn => "Warn"
  | .deny => "Deny"

/-- The settings, one in a line. -/
def Arguments.shown (arguments : Arguments) : String :=
  let lines := text
    ["Cli ".push '{',
      "    input_dir: " ++ Quoted.quote arguments.inputDir.text ++ ",",
      "    output_dir: " ++ Quoted.quote arguments.outputDir.text ++ ",",
      "    file_name: " ++ Quoted.quote arguments.fileName ++ ",",
      "    discovery: " ++ discoverySetting arguments.discovery ++ ",",
      "    duplicates: " ++ duplicatesSetting arguments.duplicates ++ ","]
  lines.push '}'

/-- How a notice is written. -/
def Notice.record (notice : Notice) : Record :=
  match notice with
  | invoked arguments =>
    ⟨.debug, target, "Invoked with CLI params", [("cli", .plain arguments.shown)]⟩
  | done path enums =>
    ⟨.info, target, "Done", [("path", .plain path.text), ("enums", .count enums)]⟩
  | nothingToWrite => ⟨.info, target, "Nothing to write", []⟩
  | failed report => ⟨.error, target, "Exiting with error: " ++ report.paragraph, []⟩
where
  target := "enumgen"

/-- What running the program comes to. -/
inductive Response where
  /-- The arguments cannot be used. -/
  | refused (error : UsageError)
  /-- The program only explains itself. -/
  | explained (text : String)
  /-- A run came to an outcome or failed, with the given records in its log. -/
  | ran (result : Except Report Outcome) (log : List Record)

/-- The exit code of the program. -/
def Response.exitCode : Response → Nat
  | explained _ => 0
  | ran (.ok _) _ => 0
  | ran (.error _) _ => 1
  | refused _ => 2

/-- What is said at the end of a run. -/
def Notice.ofResult : Except Report Outcome → Notice
  | .ok (.written path enums) => .done path enums
  | .ok .noEnums => .nothingToWrite
  | .error report => .failed report

/-- What a run with the given settings comes to, all that there is to log about it, and the file
system behind it. -/
def runWith (arguments : Arguments) (fs : FileSystem) :
    Except Report Outcome × List Record × FileSystem :=
  let created := Generator.create arguments.inputDir arguments.outputDir (some arguments.fileName)
    (some arguments.discovery) (some arguments.duplicates)
  match created with
  | .error name => finish (.error ⟨PlainName.refusal name, []⟩) [] fs
  | .ok generator =>
    let run := generator.run fs
    finish (run.result.mapError RunError.report) run.events run.fileSystem
where
  finish (result : Except Report Outcome) (events : List Event) (fs : FileSystem) :=
    (result,
      (Notice.invoked arguments).record :: events.map Event.record
        ++ [(Notice.ofResult result).record],
      fs)

/-- The program. -/
def execute (arguments : List String) (logSetting : Option String) (fs : FileSystem) :
    Response × FileSystem :=
  match parse arguments with
  | .error error => (.refused error, fs)
  | .ok (.help long) => (.explained (help long), fs)
  | .ok .version => (.explained version, fs)
  | .ok (.run arguments) =>
    let (result, records, fs) := runWith arguments fs
    let threshold := Threshold.ofSetting logSetting
    (.ran result (records.filter fun record => threshold.admits record.level), fs)

end SchemaEnums.CommandLine
