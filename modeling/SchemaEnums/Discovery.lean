import SchemaEnums.Event

/-!
# Discovery of schema files

`Discovery.scan` collects what a tree shows, one sighting after the other (`Discovery.collect`).
Under `keepGoing` all schema files are found and all failures are collected.  Under `failOpen` a
single failure leaves nothing, and nothing is mentioned behind it.
-/

namespace SchemaEnums

/-- The result of a scan. -/
structure Discovery where
  /-- The schema files, in the order of the walk. -/
  files : List Path
  /-- The directories that were left out. -/
  errors : List ListingError
  /-- What a log shows of the scan. -/
  events : List Event
deriving DecidableEq, Repr

namespace Discovery

/-- What has been collected before anything is seen. -/
def start : Discovery := ⟨[], [], []⟩

/-- Goes on from what has been collected with what is seen next.  Under `failOpen` a directory that
cannot be listed ends the scan, and only the log is kept. -/
def collect (policy : DiscoveryPolicy) (collected : Discovery) : List Sighting → Discovery
  | [] => collected
  | .schema path :: rest =>
    collect policy
      { collected with
        files := collected.files ++ [path]
        events := collected.events ++ [.discovered path] } rest
  | .notUtf8 shown :: rest =>
    collect policy { collected with events := collected.events ++ [.notUtf8 shown] } rest
  | .unlisted error :: rest =>
    match policy with
    | .failOpen => ⟨[], [], collected.events ++ [.scanFailed error]⟩
    | .keepGoing =>
      collect policy
        { collected with
          errors := collected.errors ++ [error]
          events := collected.events ++ [.skipped error] } rest

/-- The schema files below a root. -/
def scan (fs : FileSystem) (root : Path) (policy : DiscoveryPolicy) : Discovery :=
  collect policy start (Listing.ofRoot fs root)

/-- Whether no directory was left out. -/
def isComplete (discovery : Discovery) : Bool :=
  discovery.errors.isEmpty

end Discovery

end SchemaEnums
