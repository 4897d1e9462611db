/-!
# What the command line says about itself

The explanation of the options, at length for `--help` and in short for `-h`, and the version.
Blank lines inside of an option's paragraphs are indented like the paragraphs.
-/

namespace SchemaEnums.CommandLine

/-- The explanation at length. -/
def longHelp : List String :=
  [
    "Generates TypeScript enums from the enum declarations found in a tree of JSON Schema files",
    "",
    "Usage: enumgen [OPTIONS] <INPUT_DIR> <OUTPUT_DIR>",
    "",
    "Arguments:",
    "  <INPUT_DIR>",
    "          Directory that is searched recursively for `*.json` schema files",
    "",
    "  <OUTPUT_DIR>",
    "          Existing directory the generated file is written to",
    "",
    "Options:",
    "      --file-name <FILE_NAME>",
    "          Name of the generated file inside of the output directory",
    "          ",
    "          [default: types.ts]",
    "",
    "      --discovery <DISCOVERY>",
    "          What to do when a directory in the input tree can't be listed.",
    "          ",
    "          `fail-open` logs the error and processes no schemas at all, `partial` logs the error and processes the schemas that could be found.",
    "",
    "          Possible values:",
    "          - fail-open: The first listing failure is logged and the whole scan yields nothing, even if some schema files were already found",
    "          - partial:   Listing failures are logged and collected in [`Discovery::errors`], the rest of the tree is still scanned",
    "          ",
    "          [default: fail-open]",
    "",
    "      --duplicates <DUPLICATES>",
    "          What to do when several enums end up with the same name",
    "",
    "          Possible values:",
    "          - allow: Emit every declaration as is",
    "          - warn:  Emit every declaration, but log a warning for each duplicate name",
    "          - deny:  Fail the run before anything is written",
    "          ",
    "          [default: warn]",
    "",
    "  -h, --help",
    "          Print help (see a summary with '-h')",
    "",
    "  -V, --version",
    "          Print version"
  ]

/-- The explanation in short. -/
def shortHelp : List String :=
  [
    "Generates TypeScript enums from the enum declarations found in a tree of JSON Schema files",
    "",
    "Usage: enumgen [OPTIONS] <INPUT_DIR> <OUTPUT_DIR>",
    "",
    "Arguments:",
    "  <INPUT_DIR>   Directory that is searched recursively for `*.json` schema files",
    "  <OUTPUT_DIR>  Existing directory the generated file is written to",
    "",
    "Options:",
    "      --file-name <FILE_NAME>",
    "          Name of the generated file inside of the output directory [default: types.ts]",
    "      --discovery <DISCOVERY>",
    "          What to do when a directory in the input tree can't be listed [default: fail-open] [possible values: fail-open, partial]",
    "      --duplicates <DUPLICATES>",
    "          What to do when several enums end up with the same name [default: warn] [possible values: allow, warn, deny]",
    "  -h, --help",
    "          Print help (see more with '--help')",
    "  -V, --version",
    "          Print version"
  ]

/-- Lines as text, each of them ended. -/
def text (lines : List String) : String :=
  .join (lines.map (· ++ "\n"))

/-- The explanation of the options. -/
def help (long : Bool) : String :=
  text (if long then longHelp else shortHelp)

/-- The name of the program and its version. -/
def version : String :=
  text ["enumgen 0.1.0"]

end SchemaEnums.CommandLine
