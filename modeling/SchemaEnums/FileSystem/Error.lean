/-!
# Why the system refuses a path

The reasons for which opening, listing or renaming can fail, with the system's wording and number.
A file system carries some of them itself: its closed entries are refused for the reason they hold.
-/

namespace SchemaEnums

/-- A refusal by the operating system. -/
inductive OsError where
  | notFound
  | accessDenied
  | notADirectory
  | isADirectory
  | invalidArgument
  | nameTooLong
  | tooManyLinks
  /-- A path that holds a zero byte never reaches the system. -/
  | zeroByte
  /-- Every name that a temporary file could take is taken. -/
  | noFreshName
  /-- Whatever else the system says, in its own words. -/
  | other (wording : String)
deriving DecidableEq, Repr

/-- The wording of a refusal. -/
def OsError.message : OsError → String
  | notFound => "No such file or directory (os error 2)"
  | accessDenied => "Permission denied (os error 13)"
  | notADirectory => "Not a directory (os error 20)"
  | isADirectory => "Is a directory (os error 21)"
  | invalidArgument => "Invalid argument (os error 22)"
  | nameTooLong => "File name too long (os error 36)"
  | tooManyLinks => "Too many levels of symbolic links (os error 40)"
  | zeroByte => "file name contained an unexpected NUL byte"
  | noFreshName => "too many temporary files exist"
  | other wording => wording

end SchemaEnums
