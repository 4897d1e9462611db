import SchemaEnums.Proofs.Extraction.Agreement
import SchemaEnums.Proofs.Json.Keys

/-!
# The declarations of a document

What a document declares, said by the ways through its properties: its enums, in the order of their
ways.  In a document with distinct keys a way is known by the properties it goes through.

* `Reaches.way_eq_of_keys`: **properties with the same names are the same way.**
* `declarations_ofDocument`: **the declarations of a document are its enums**, and nothing else in
  the document has a part in them.
-/

namespace SchemaEnums

namespace Schema

variable {document node found : Json} {way other : List Step}

theorem HasProperties.distinctKeys {properties : List (String × Json)}
    (h : HasProperties node properties) (hkeys : node.DistinctKeys) :
    (Json.object properties).DistinctKeys := by
  cases node with
  | object members => exact hkeys.of_lookup h.2
  | null => cases h.2
  | bool value => cases h.2
  | number value => cases h.2
  | string text => cases h.2
  | array elements => cases h.2

/-- **Properties with the same names are the same way**, if the keys of objects are distinct. -/
theorem Reaches.way_eq_of_keys (h : Reaches document way node) (hkeys : document.DistinctKeys)
    (hother : Reaches document other found) (hnames : way.map Prod.snd = other.map Prod.snd) :
    way = other := by
  induction h generalizing other with
  | here => exact (List.map_eq_nil_iff.mp hnames.symm).symm
  | @property node value _ properties position key rest hproperties hvalue _ ih =>
    cases hother with
    | here => cases hnames
    | @property _ counterpart _ others there _ behind hothers hcounterpart hbehind =>
      obtain ⟨rfl, hrest⟩ := List.cons.inj hnames
      obtain rfl := hproperties.unique hothers
      have hdistinct := hproperties.distinctKeys hkeys
      obtain ⟨rfl, rfl⟩ := hdistinct.position_eq hvalue hcounterpart
      rw [ih (hdistinct.of_mem (List.mem_of_getElem? hvalue)) hbehind hrest]

end Schema

open Schema

namespace Extraction

/-- **The declarations of a document are its enums**, in the order of their ways; there are some
exactly if no schema that can be reached is malformed.  A way to an enum is known by the properties
it goes through, and documents that agree in what is looked at have the same declarations. -/
theorem declarations_ofDocument (document : Json) (name : String) (source : Path) :
    ((∃ declarations, (ofDocument document name).declarations source = .ok declarations) ↔
        ∀ way node, Reaches document way node → ¬ Malformed node) ∧
      (∀ declarations, (ofDocument document name).declarations source = .ok declarations →
        Enumerates (List.Lex Step.Before)
          (fun way declaration => ∃ node members, Reaches document way node ∧
            IsEnum node members ∧ declaration = ⟨nameAt name way, members, source⟩)
          declarations ∧
        ∀ declaration ∈ declarations, declaration.members ≠ [] ∧ declaration.source = source) ∧
      (document.DistinctKeys → ∀ way other node found, Reaches document way node →
        Reaches document other found → way.map Prod.snd = other.map Prod.snd → way = other) ∧
      ∀ other, Agrees document other →
        (ofDocument other name).declarations source =
          (ofDocument document name).declarations source := by
  refine ⟨?_, ?_, ?_, ?_⟩
  · exact exists_declarations_iff
  · intro declarations h
    have henums := enumerates_declarations h
    refine ⟨henums, ?_⟩
    intro declaration hmem
    obtain ⟨way, node, members, -, henum, rfl⟩ := henums.mem_iff.mp hmem
    exact ⟨henum.2.1, rfl⟩
  · intro hkeys way other node found hreaches hother hnames
    exact hreaches.way_eq_of_keys hkeys hother hnames
  · intro other hagrees
    rw [ofDocument, ofDocument, walk_of_agrees hagrees]

end Extraction

end SchemaEnums
