/-!
# Reports of errors

An error is reported as what failed and the chain of its causes, from the outermost to the root
(`Report`).  The chain is shown in one line (`Report.message`) or as a paragraph
(`Report.paragraph`).
-/

namespace SchemaEnums

/-- What failed, and why. -/
structure Report where
  outermost : String
  causes : List String
deriving DecidableEq, Repr

namespace Report

/-- The whole chain in one line. -/
def message (report : Report) : String :=
  ": ".intercalate (report.outermost :: report.causes)

/-- A text whose first line starts with `first` and whose other lines start with `others`. -/
def indent (first others text : String) : String :=
  first ++ ("\n" ++ others).intercalate ((text.toList.splitOn '\n').map .ofList)

/-- A number, right-aligned in five columns, with a colon. -/
def label (number : Nat) : String :=
  let digits := toString number
  .ofList (List.replicate (5 - digits.length) ' ') ++ digits ++ ": "

/-- The causes, indented; several of them are numbered. -/
def causeLines : List String → List String
  | [cause] => [indent "    " "    " cause]
  | causes => causes.mapIdx fun number cause => indent (label number) "       " cause

/-- What failed, and below it the causes. -/
def paragraph (report : Report) : String :=
  match report.causes with
  | [] => report.outermost
  | causes => report.outermost ++ "\n\nCaused by:\n" ++ "\n".intercalate (causeLines causes)

end Report

end SchemaEnums
