import SchemaEnums.Json.Reader

/-!
# What a reader can return

A reader that may still open a number of brackets returns a scalar, or uses up one of them and
returns an array of values, or the object that pairs of a key and a value spell out, where each of
the values comes from a reader with one bracket less.  Whatever follows from this holds of every
document that has been read, and nothing about the text is needed for it.

* `Readable`: the values that a reader with a number of brackets left can return.
* `readable_of_parse`: **a document that has been read is one of these values.**
-/

namespace SchemaEnums.Json

open Reader

/-- The values that a reader can return which may still open as many brackets. -/
inductive Readable : Nat → Json → Prop
  | null {brackets : Nat} : Readable brackets .null
  | bool {brackets : Nat} (value : Bool) : Readable brackets (.bool value)
  | number {brackets : Nat} (value : Number) : Readable brackets (.number value)
  | string {brackets : Nat} (text : String) : Readable brackets (.string text)
  | array {brackets : Nat} {elements : List Json}
      (helements : ∀ element ∈ elements, Readable brackets element) :
      Readable (brackets + 1) (.array elements)
  | object {brackets : Nat} {pairs : List (String × Json)}
      (hpairs : ∀ pair ∈ pairs, Readable brackets pair.2) : Readable (brackets + 1) (ofPairs pairs)

namespace Reader

/-- What a reader reads has a property. -/
def Yields (item : Reader Json) (P : Json → Prop) : Prop :=
  ∀ {text : List Char} {read : Read Json text}, item text = .ok read → P read.value

variable {item : Reader Json} {P : Json → Prop} {text : List Char}

theorem forall_of_elements (hitem : Yields item P) {read : Read (List Json) text}
    (h : elements item text = .ok read) : ∀ element ∈ read.value, P element := by
  fun_induction elements item text <;> cases h
  · -- the last element
    exact List.forall_mem_singleton.mpr (hitem ‹item _ = .ok _›)
  · rename_i hmore ih
    exact List.forall_mem_cons.mpr ⟨hitem ‹item _ = .ok _›, ih hmore⟩

theorem forall_of_members (hitem : Yields item P) {read : Read (List (String × Json)) text}
    (h : members item text = .ok read) : ∀ member ∈ read.value, P member.2 := by
  fun_induction members item text <;> cases h
  · -- the last member
    exact List.forall_mem_singleton.mpr (hitem ‹item _ = .ok _›)
  · rename_i hmore ih
    exact List.forall_mem_cons.mpr ⟨hitem ‹item _ = .ok _›, ih hmore⟩

/-- What stands between brackets is an array of what the reader of its elements reads. -/
theorem exists_of_array (hitem : Yields item P) {read : Read Json text}
    (h : array item text = .ok read) :
    ∃ elements, read.value = .array elements ∧ ∀ element ∈ elements, P element := by
  unfold array at h
  split at h
  · cases h
  · cases h
    exact ⟨[], rfl, nofun⟩
  · split at h
    · cases h
    · rename_i helements
      cases h
      exact ⟨_, rfl, forall_of_elements hitem helements⟩

/-- What stands between braces is spelled out by pairs of a key and of what the reader reads. -/
theorem exists_of_object (hitem : Yields item P) {read : Read Json text}
    (h : object item text = .ok read) :
    ∃ pairs, read.value = ofPairs pairs ∧ ∀ pair ∈ pairs, P pair.2 := by
  unfold object at h
  split at h
  · cases h
  · cases h
    exact ⟨[], rfl, nofun⟩
  · split at h
    · cases h
    · rename_i hmembers
      cases h
      exact ⟨_, rfl, forall_of_members hitem hmembers⟩
  · cases h

theorem value_of_word {letters rest : List Char} {value : Json} {hshorter : rest.length < text.length}
    {read : Read Json text} (h : valueWith.word letters value hshorter = .ok read) :
    read.value = value := by
  unfold valueWith.word literal at h
  split at h
  · cases h
  · rename_i hliteral
    split at hliteral
    · cases hliteral
    · cases hliteral
      cases h
      rfl

theorem exists_of_map_of {later : List Char} {hshorter : later.length < text.length}
    {result : Except Failure (Read Json later)} {read : Read Json text}
    (h : result.map (·.of hshorter) = .ok read) :
    ∃ inner, result = .ok inner ∧ read.value = inner.value := by
  cases result with
  | error failure => cases h
  | ok inner =>
    cases h
    exact ⟨inner, rfl, rfl⟩

/-- A bracket opens only for a reader of what stands behind it. -/
theorem yields_valueWith {nested : Option (Reader Json)} {brackets : Nat}
    (hnested : ∀ item ∈ nested, ∃ fewer, brackets = fewer + 1 ∧ Yields item (Readable fewer)) :
    Yields (valueWith nested) (Readable brackets) := by
  intro text read h
  unfold valueWith at h
  split at h
  · cases h
  · split at h
    · cases h
    · obtain ⟨inner, hinner, hvalue⟩ := exists_of_map_of h
      obtain ⟨fewer, rfl, hitem⟩ := hnested _ rfl
      obtain ⟨elements, harray, helements⟩ := exists_of_array hitem hinner
      rw [hvalue, harray]
      exact .array helements
  · split at h
    · cases h
    · obtain ⟨inner, hinner, hvalue⟩ := exists_of_map_of h
      obtain ⟨fewer, rfl, hitem⟩ := hnested _ rfl
      obtain ⟨pairs, hobject, hpairs⟩ := exists_of_object hitem hinner
      rw [hvalue, hobject]
      exact .object hpairs
  · split at h
    · cases h
    · cases h
      exact .string _
  · rw [value_of_word h]
    exact .null
  · rw [value_of_word h]
    exact .bool true
  · rw [value_of_word h]
    exact .bool false
  · split at h
    · split at h
      · cases h
      · cases h
        exact .number _
    · cases h

theorem yields_value (brackets : Nat) : Yields (value brackets) (Readable brackets) := by
  induction brackets with
  | zero =>
    refine yields_valueWith ?_
    rintro _ ⟨⟩
  | succ brackets ih =>
    refine yields_valueWith ?_
    rintro _ ⟨⟩
    exact ⟨brackets, rfl, ih⟩

end Reader

/-- **A document that has been read is a value that can be read** with `maxDepth` brackets. -/
theorem readable_of_parse {text : String} {json : Json} (h : parse text = .ok json) :
    Readable maxDepth json := by
  have hdocument : document maxDepth text.toList = .ok json := by
    unfold parse at h
    cases hread : document maxDepth text.toList with
    | error failure =>
      rw [hread] at h
      cases h
    | ok read =>
      rw [hread] at h
      cases h
      rfl
  unfold document at hdocument
  split at hdocument
  · cases hdocument
  · rename_i hvalue
    split at hdocument
    · cases hdocument
      exact yields_value maxDepth hvalue
    · cases hdocument

end SchemaEnums.Json
