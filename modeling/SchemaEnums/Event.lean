import SchemaEnums.Duplicate
import SchemaEnums.Extraction
import SchemaEnums.Listing
import SchemaEnums.Policy
import SchemaEnums.Text.Inert

/-!
# Events

What happens on the way to the generated file, as far as a log shows it.  An `Event` is a value of
the domain; `Event.record` says how it is written: its level, the part of the program it belongs
to, a message and named fields.
-/

namespace SchemaEnums

/-- How important an event is, the most important first. -/
inductive Level where
  | error
  | warn
  | info
  | debug
deriving DecidableEq, Repr

namespace Level

/-- The place of a level in the order, from zero for the most important one. -/
def rank : Level → Nat
  | error => 0
  | warn => 1
  | info => 2
  | debug => 3

/-- The name of a level. -/
def name : Level → String
  | error => "ERROR"
  | warn => "WARN"
  | info => "INFO"
  | debug => "DEBUG"

end Level

/-- The value of a field of a log record. -/
inductive Field where
  /-- A text, written as it is. -/
  | plain (text : String)
  /-- A text, written between quotes. -/
  | quoted (text : String)
  | count (number : Nat)
deriving DecidableEq, Repr

/-- A line of a log. -/
structure Record where
  level : Level
  target : String
  message : String
  fields : List (String × Field)
deriving DecidableEq, Repr

/-- The value of a field in a line of a log. -/
def Field.shown : Field → String
  | plain text => text
  | quoted text => Quoted.quote text
  | count number => toString number

/-- A record as a line of a log.  The message is written so that a terminal only shows it; the
fields are written as they are. -/
def Record.line (record : Record) : String :=
  let fields := record.fields.map fun field => field.1 ++ ": " ++ field.2.shown
  record.level.name ++ " " ++ record.target ++ ": "
    ++ ", ".intercalate (Inert.write record.message :: fields)

/-- Something that happened. -/
inductive Event where
  /-- A run has started. -/
  | started (input output : Path) (discovery : DiscoveryPolicy) (duplicates : DuplicatePolicy)
  /-- A schema file has been found. -/
  | discovered (path : Path)
  /-- A file has been left out because its path is no text. -/
  | notUtf8 (shown : Path)
  /-- A directory cannot be listed, and the scan is given up. -/
  | scanFailed (error : ListingError)
  /-- A directory cannot be listed, and the scan goes on. -/
  | skipped (error : ListingError)
  /-- The scan has left out some directories. -/
  | incomplete (skipped : Nat)
  /-- An enum has been found. -/
  | found (item : Found) (source : Path)
  /-- A schema file is done. -/
  | processed (path : Path) (enums : Nat)
  /-- No schema file has an enum. -/
  | noEnums (files : Nat)
  /-- Several enums have the same name. -/
  | repeatedName (duplicate : Duplicate)
  /-- The output has been written. -/
  | generated (path : Path) (enums files : Nat)
deriving DecidableEq, Repr

namespace Event

/-- How an event is written. -/
def record : Event → Record
  | started input output discovery duplicates =>
    ⟨.info, codegen, "Generating enums from schemas",
      [("input_dir", .plain input.text), ("output", .plain output.text),
        ("discovery", .plain discovery.name), ("duplicates", .plain duplicates.name)]⟩
  | discovered path =>
    ⟨.debug, discovery, "Discovered schema file", [("path", .plain path.text)]⟩
  | notUtf8 shown =>
    ⟨.warn, discovery, shown.text ++ " contains invalid utf-8, skipping", []⟩
  | scanFailed error =>
    ⟨.error, discovery, "Schema discovery failed, no schema files will be processed",
      [("path", .plain error.path.text), ("err", .plain error.cause)]⟩
  | skipped error =>
    ⟨.warn, discovery, "Skipping a part of the schema tree that could not be listed",
      [("path", .plain error.path.text), ("err", .plain error.cause)]⟩
  | incomplete count =>
    ⟨.warn, codegen,
      "Some parts of the schema tree could not be listed, the generated enums may be incomplete",
      [("skipped", .count count)]⟩
  | found item source =>
    ⟨.debug, extract, "Found enum",
      [("enum_name", .quoted item.name), ("source", .plain source.text),
        ("pointer", .quoted item.pointer.text), ("members", .count item.members.length)]⟩
  | processed path enums =>
    ⟨.debug, codegen, "Processed schema file",
      [("path", .plain path.text), ("enums", .count enums)]⟩
  | noEnums files => ⟨.info, codegen, "No enum found", [("files", .count files)]⟩
  | repeatedName duplicate =>
    ⟨.warn, codegen, "Enum name is declared more than once",
      [("name", .plain duplicate.name), ("sources", .plain duplicate.shownSources)]⟩
  | generated path enums files =>
    ⟨.info, codegen, "Generated enums",
      [("path", .plain path.text), ("enums", .count enums), ("files", .count files)]⟩
where
  codegen := "enumgen::codegen"
  discovery := "enumgen::discovery"
  extract := "enumgen::extract"

/-- The level of an event. -/
def level (event : Event) : Level := event.record.level

end Event

end SchemaEnums
