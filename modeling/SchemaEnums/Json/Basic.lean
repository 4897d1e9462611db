/-!
# JSON values

A document is a tree of `Json` values.  Three choices matter to everything that follows.

* The members of an object are a list of pairs **in document order**: the order of the generated
  declarations is the order of the keys.  `Json.insertMember` adds one the way a reader does, so a
  repeated key keeps its first place and takes its last value.
* An integer is exact when it fits 64 bits (`Json.Integer`); every other number is a binary64 float.
* `Json.depth` counts nested brackets: a scalar has none, `[]` has one.
-/

namespace SchemaEnums

/-- The integers a document holds exactly: those of 64 bits, unsigned, or signed if negative. -/
abbrev Json.Integer :=
  { i : Int // -9223372036854775808 ≤ i ∧ i ≤ 18446744073709551615 }

/-- A number of a document. -/
inductive Json.Number where
  /-- A number written without fraction and exponent that fits 64 bits. -/
  | integer (value : Json.Integer)
  /-- Any other number. -/
  | float (value : Float)

/-- A JSON value. -/
inductive Json where
  | null
  | bool (value : Bool)
  | number (value : Json.Number)
  | string (text : String)
  | array (elements : List Json)
  | object (members : List (String × Json))

namespace Json

/-- Adds a member: a key that is there already keeps its place and takes the new value. -/
def insertMember (members : List (String × Json)) (key : String) (value : Json) :
    List (String × Json) :=
  match members with
  | [] => [(key, value)]
  | (k, v) :: rest =>
    if k = key then (k, value) :: rest else (k, v) :: insertMember rest key value

/-- The object that a list of pairs spells out, keys possibly repeated. -/
def ofPairs (pairs : List (String × Json)) : Json :=
  .object (pairs.foldl (fun members pair => insertMember members pair.1 pair.2) [])

mutual

/-- How many brackets are nested at the deepest place of a value. -/
def depth : Json → Nat
  | array elements => depthOfElements elements + 1
  | object members => depthOfMembers members + 1
  | _ => 0

/-- The greatest depth among the elements of an array. -/
def depthOfElements : List Json → Nat
  | [] => 0
  | element :: rest => max (depth element) (depthOfElements rest)

/-- The greatest depth among the members of an object. -/
def depthOfMembers : List (String × Json) → Nat
  | [] => 0
  | (_, value) :: rest => max (depth value) (depthOfMembers rest)

end

/-- The text of a string, `none` for any other value. -/
def text? : Json → Option String
  | string text => some text
  | _ => none

end Json

end SchemaEnums
