import SchemaEnums.Declaration
import SchemaEnums.Schema

/-!
# The enums of a document

`Extraction.ofDocument` walks from the root of a document through the properties of object
schemas, in document order, and notes every enum on its way.  It stops at the first defect; what
was found before is kept, because it has been reported by then.

* `Extraction.walk` and `Extraction.walkProperties`: the walk from a schema and from a list of
  them.
* `Extraction.declarations`: what the walk declares, or the defect that stopped it.
-/

namespace SchemaEnums

/-- An enum found in a document. -/
structure Found where
  /-- The property that owns the enum, or the name given to the document. -/
  name : String
  /-- Where it stands. -/
  pointer : Pointer
  members : List String
deriving DecidableEq, Repr

/-- The declaration of an enum found in a file. -/
def Found.declare (found : Found) (source : Path) : Declaration :=
  ⟨found.name, found.members, source⟩

/-- What a walk has found, and the defect that stopped it, if any. -/
structure Extraction where
  found : List Found
  error : Option SchemaError

namespace Extraction

mutual

/-- The walk from one schema. -/
def walk (value : Json) (name : String) (pointer : Pointer) : Extraction :=
  match _h : Schema.classify value with
  | .error defect => ⟨[], some ⟨pointer, defect⟩⟩
  | .ok .other => ⟨[], none⟩
  | .ok (.enumeration members) => ⟨[⟨name, pointer, members⟩], none⟩
  | .ok (.object properties) => walkProperties properties pointer
termination_by sizeOf value
decreasing_by exact Schema.sizeOf_properties _h

/-- The walk from the schemas of the properties of the object schema at `parent`. -/
def walkProperties (properties : List (String × Json)) (parent : Pointer) : Extraction :=
  match properties with
  | [] => ⟨[], none⟩
  | (name, value) :: rest =>
    match walk value name (parent.property name) with
    | ⟨found, some error⟩ => ⟨found, some error⟩
    | ⟨found, none⟩ =>
      let more := walkProperties rest parent
      ⟨found ++ more.found, more.error⟩
termination_by sizeOf properties

end

/-- The walk through a whole document; `name` is for an enum at its root. -/
def ofDocument (document : Json) (name : String) : Extraction :=
  walk document name .root

/-- The declarations of a document that stands in the file `source`. -/
def declarations (extraction : Extraction) (source : Path) :
    Except SchemaError (List Declaration) :=
  match extraction.error with
  | some error => .error error
  | none => .ok (extraction.found.map (·.declare source))

end Extraction

end SchemaEnums
