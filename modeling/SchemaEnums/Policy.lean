/-!
# Policies

Two decisions that are left to the user: what to do with a directory that cannot be listed, and
what to do with enums that end up with the same name.
-/

namespace SchemaEnums

/-- What to do when a part of the schema tree cannot be listed. -/
inductive DiscoveryPolicy where
  /-- The first failure makes the whole scan yield nothing. -/
  | failOpen
  /-- The rest of the tree is scanned. -/
  | keepGoing
deriving DecidableEq, Repr

namespace DiscoveryPolicy

/-- The policy of someone who names none. -/
def default : DiscoveryPolicy := failOpen

/-- All policies, in the order in which they are explained. -/
def all : List DiscoveryPolicy := [failOpen, keepGoing]

/-- The name of a policy. -/
def name : DiscoveryPolicy → String
  | failOpen => "fail-open"
  | keepGoing => "partial"

/-- The policy of a name. -/
def ofName? (text : String) : Option DiscoveryPolicy :=
  all.find? (·.name = text)

end DiscoveryPolicy

/-- What to do when several enums end up with the same name. -/
inductive DuplicatePolicy where
  /-- Every declaration is written. -/
  | allow
  /-- Every declaration is written, with a warning for each repeated name. -/
  | warn
  /-- Nothing is written. -/
  | deny
deriving DecidableEq, Repr

namespace DuplicatePolicy

/-- The policy of someone who names none. -/
def default : DuplicatePolicy := warn

/-- All policies, in the order in which they are explained. -/
def all : List DuplicatePolicy := [allow, warn, deny]

/-- The name of a policy. -/
def name : DuplicatePolicy → String
  | allow => "allow"
  | warn => "warn"
  | deny => "deny"

/-- The policy of a name. -/
def ofName? (text : String) : Option DuplicatePolicy :=
  all.find? (·.name = text)

end DuplicatePolicy

/-- The message for a policy name that is none. -/
def unknownPolicyMessage (text : String) : String :=
  "invalid variant: " ++ text

end SchemaEnums
