import SchemaEnums.Proofs.Json.Depth
import SchemaEnums.Proofs.Json.Numeral
import SchemaEnums.Proofs.Json.Reading
import SchemaEnums.Proofs.Json.StringLiteral

/-!
# Values read back

A value that holds no float is written without loss: its text is read as this value, with all keys
in their order, whatever stands behind it.  Only nesting is limited.

* `FloatFree`: a value that holds no float.
* `Returns`: a reader returns a value from its text, whatever stands behind the text.
* `reads_elementChars`, `reads_memberChars`: elements and members are returned if each of them is.
* `reads_objectChars`: an object is read from the text of its members, even if they repeat keys.
* `returns_value`: **values are returned**, up to the number of brackets that may be nested.
* `parse_print`: **a document is read back from its text.**
-/

namespace SchemaEnums.Json

open Reader

/-- A value that holds no float. -/
inductive FloatFree : Json → Prop
  | null : FloatFree .null
  | bool (value : Bool) : FloatFree (.bool value)
  | integer (value : Integer) : FloatFree (.number (.integer value))
  | string (text : String) : FloatFree (.string text)
  | array {elements : List Json} (helements : ∀ element ∈ elements, FloatFree element) :
      FloatFree (.array elements)
  | object {members : List (String × Json)} (hmembers : ∀ member ∈ members, FloatFree member.2) :
      FloatFree (.object members)

attribute [simp] FloatFree.null FloatFree.bool FloatFree.integer FloatFree.string

@[simp]
theorem floatFree_array_iff {elements : List Json} :
    (array elements).FloatFree ↔ ∀ element ∈ elements, element.FloatFree :=
  ⟨fun h => by cases h; assumption, .array⟩

@[simp]
theorem floatFree_object_iff {members : List (String × Json)} :
    (object members).FloatFree ↔ ∀ member ∈ members, member.2.FloatFree :=
  ⟨fun h => by cases h; assumption, .object⟩

/-- A reader returns a value from its text, whatever stands behind the text; only a number needs an
end. -/
def Returns (item : Reader Json) (value : Json) : Prop :=
  ∀ rest, EndsNumber rest → Reads item (value.chars ++ rest) value rest

variable {item : Reader Json} {nested : Option (Reader Json)} {value : Json} {rest : List Char}

theorem endsNumber_nil : EndsNumber [] := nofun

theorem endsNumber_cons {c : Char} (h : c ∈ [',', ']', '}']) (rest : List Char) :
    EndsNumber (c :: rest) := by
  have hall : ∀ d ∈ [',', ']', '}'], d.isDigit = false ∧ d ≠ '.' ∧ d ≠ 'e' ∧ d ≠ 'E' := by simp
  rintro _ ⟨⟩
  exact hall c h

/-! ### How a value starts -/

theorem exists_chars_integer (i : Integer) :
    ∃ c more, i.chars = c :: more ∧ (c = '-' ∨ c.isDigit = true) := by
  rw [Integer.chars]
  split
  · exact ⟨'-', _, rfl, Or.inl rfl⟩
  · cases hdigits : Nat.toDigits 10 i.val.natAbs with
    | nil => exact absurd hdigits Nat.toDigits_ne_nil
    | cons c more =>
      exact ⟨c, more, rfl, Or.inr (isDigit_of_mem_toDigits (hdigits ▸ List.mem_cons_self))⟩

/-- Neither a blank nor a bracket that closes an array stands in front of a value. -/
theorem FloatFree.exists_chars (h : value.FloatFree) :
    ∃ c more, value.chars = c :: more ∧ c ∉ [' ', '\t', '\n', '\r'] ∧ c ≠ ']' := by
  cases h with
  | null => exact ⟨'n', _, rfl, by decide, by decide⟩
  | bool value =>
    cases value with
    | true => exact ⟨'t', _, rfl, by decide, by decide⟩
    | false => exact ⟨'f', _, rfl, by decide, by decide⟩
  | integer i =>
    obtain ⟨c, more, hchars, hc⟩ := exists_chars_integer i
    have hnone : ∀ d ∈ [' ', '\t', '\n', '\r', ']'], ¬ (d = '-' ∨ d.isDigit = true) := by simp
    refine ⟨c, more, hchars, fun hblank => ?_, ?_⟩
    · exact hnone c (List.mem_append_left [']'] hblank) hc
    · rintro rfl
      exact hnone ']' (by decide) hc
  | string text => exact ⟨'"', _, rfl, by decide, by decide⟩
  | array _ => exact ⟨'[', _, rfl, by decide, by decide⟩
  | object _ => exact ⟨'{', _, rfl, by decide, by decide⟩

theorem exists_elementChars {next : Json} (h : next.FloatFree) (more : List Json) :
    ∃ c behind, elementChars (next :: more) = c :: behind ∧ c ∉ [' ', '\t', '\n', '\r'] ∧
      c ≠ ']' := by
  obtain ⟨c, front, hchars, hblank, hbracket⟩ := h.exists_chars
  cases more with
  | nil =>
    refine ⟨c, front ++ [']'], ?_, hblank, hbracket⟩
    rw [elementChars, hchars, List.cons_append]
  | cons second more =>
    refine ⟨c, front ++ ',' :: elementChars (second :: more), ?_, hblank, hbracket⟩
    rw [elementChars, hchars, List.cons_append]
    exact List.cons_ne_nil second more

/-! ### Strings, elements and members -/

theorem reads_string (text : String) (rest : List Char) :
    Reads Reader.string (StringLiteral.body text.toList ++ '"' :: rest) text rest := by
  obtain ⟨shorter, hread⟩ := StringLiteral.characters_body text.toList rest
  refine ⟨shorter, ?_⟩
  rw [Reader.string, hread]
  simp

/-- **Elements are returned if each of them is.** -/
theorem reads_elementChars {elements : List Json} (hne : elements ≠ [])
    (hfloat : ∀ element ∈ elements, element.FloatFree)
    (h : ∀ element ∈ elements, Returns item element) (rest : List Char) :
    Reads (Reader.elements item) (elementChars elements ++ rest) elements rest := by
  induction elements with
  | nil => exact absurd rfl hne
  | cons element others ih =>
    obtain ⟨helement, hothers⟩ := List.forall_mem_cons.mp h
    -- the text of the last element ends with the bracket, that of another one with a comma
    cases others with
    | nil =>
      have hfirst := helement (']' :: rest) (endsNumber_cons (by decide) rest)
      show Reads _ ((element.chars ++ [']']) ++ rest) _ _
      rw [List.append_assoc]
      exact elements_last hfirst
    | cons next more =>
      have hmore := ih (List.cons_ne_nil next more) (List.forall_mem_cons.mp hfloat).2 hothers
      have hnext : next.FloatFree := hfloat next (List.mem_cons_of_mem _ List.mem_cons_self)
      obtain ⟨c, behind, hchars, hblank, hbracket⟩ := exists_elementChars hnext more
      have hfirst := helement (',' :: (elementChars (next :: more) ++ rest))
        (endsNumber_cons (by decide) _)
      show Reads _ ((element.chars ++ ',' :: elementChars (next :: more)) ++ rest) _ _
      rw [List.append_assoc]
      rw [hchars, List.cons_append] at hmore hfirst
      rw [hchars]
      exact elements_more hfirst hblank hbracket hmore

/-- What stands behind the opening quote of a member, up to its end. -/
def memberText (key : String) (value : Json) (behind : List Char) : List Char :=
  StringLiteral.body key.toList ++ '"' :: ':' :: (value.chars ++ behind)

theorem memberChars_singleton (key : String) (value : Json) :
    memberChars [(key, value)] = '"' :: memberText key value ['}'] := by
  rw [memberChars, StringLiteral.chars, memberText]
  simp

theorem memberChars_cons {rest : List (String × Json)} (hne : rest ≠ []) (key : String)
    (value : Json) :
    memberChars ((key, value) :: rest) = '"' :: memberText key value (',' :: memberChars rest) := by
  rw [memberChars, StringLiteral.chars, memberText]
  · simp
  · exact hne

theorem memberText_append (key : String) (value : Json) (behind rest : List Char) :
    memberText key value behind ++ rest = memberText key value (behind ++ rest) := by
  simp [memberText]

/-- **Members are returned if each of their values is**, from behind the first quote. -/
theorem reads_memberChars {members : List (String × Json)} (hne : members ≠ [])
    (h : ∀ member ∈ members, Returns item member.2) (rest : List Char) :
    ∃ text, memberChars members = '"' :: text ∧
      Reads (Reader.members item) (text ++ rest) members rest := by
  induction members with
  | nil => exact absurd rfl hne
  | cons member others ih =>
    obtain ⟨key, value⟩ := member
    obtain ⟨hvalue, hothers⟩ := List.forall_mem_cons.mp h
    cases others with
    | nil =>
      refine ⟨_, memberChars_singleton key value, ?_⟩
      rw [memberText_append]
      have hlast := hvalue ('}' :: rest) (endsNumber_cons (by decide) rest)
      exact members_last (reads_string key _) hlast
    | cons next more =>
      have hnonempty := List.cons_ne_nil next more
      obtain ⟨text, htext, hmore⟩ := ih hnonempty hothers
      refine ⟨_, memberChars_cons hnonempty key value, ?_⟩
      rw [memberText_append, htext]
      have hfirst := hvalue (',' :: '"' :: (text ++ rest)) (endsNumber_cons (by decide) _)
      exact members_more (reads_string key _) hfirst hmore

/-! ### Values -/

theorem returns_scalar (hfloat : value.FloatFree) (harray : ∀ elements, value ≠ .array elements)
    (hobject : ∀ members, value ≠ .object members) : Returns (valueWith nested) value := by
  intro rest hrest
  cases hfloat with
  | null => exact valueWith_null nested rest
  | bool value =>
    cases value with
    | true => exact valueWith_true nested rest
    | false => exact valueWith_false nested rest
  | integer i =>
    obtain ⟨c, more, hchars, hc⟩ := exists_chars_integer i
    have hnumber := number_chars i hrest
    show Reads _ (i.chars ++ rest) _ _
    rw [hchars, List.cons_append] at hnumber ⊢
    exact valueWith_number nested hc hnumber
  | string text =>
    show Reads _ (StringLiteral.chars text.toList ++ rest) _ _
    rw [StringLiteral.chars, List.cons_append, List.append_assoc]
    exact valueWith_string nested (reads_string text rest)
  | array _ => exact absurd rfl (harray _)
  | object _ => exact absurd rfl (hobject _)

theorem returns_array {elements : List Json} (hfloat : ∀ element ∈ elements, element.FloatFree)
    (h : ∀ element ∈ elements, Returns item element) :
    Returns (valueWith (some item)) (.array elements) := by
  intro rest _
  refine valueWith_array ?_
  cases elements with
  | nil => exact array_nil item rest
  | cons element others =>
    have helement := hfloat element List.mem_cons_self
    obtain ⟨c, behind, hchars, hblank, hbracket⟩ := exists_elementChars helement others
    have hall := reads_elementChars (List.cons_ne_nil element others) hfloat h rest
    rw [hchars] at hall
    show Reads _ (elementChars (element :: others) ++ rest) _ _
    rw [hchars]
    exact array_elements hblank hbracket hall

/-- An object is read from the text of its members, even if they repeat keys. -/
theorem reads_objectChars {members : List (String × Json)}
    (h : ∀ member ∈ members, Returns item member.2) (rest : List Char) :
    Reads (valueWith (some item)) ((object members).chars ++ rest) (ofPairs members) rest := by
  refine valueWith_object ?_
  cases members with
  | nil => exact object_nil item rest
  | cons member others =>
    obtain ⟨text, htext, hall⟩ := reads_memberChars (List.cons_ne_nil member others) h rest
    rw [htext]
    exact object_members hall

theorem returns_object {members : List (String × Json)} (hkeys : (members.map Prod.fst).Nodup)
    (h : ∀ member ∈ members, Returns item member.2) :
    Returns (valueWith (some item)) (.object members) := by
  intro rest _
  have hobject := reads_objectChars h rest
  rwa [ofPairs_eq_object hkeys] at hobject

/-- **Values are returned**, up to the number of brackets that may be nested. -/
theorem returns_value (depth : Nat) :
    ∀ value : Json, value.FloatFree → value.DistinctKeys → value.depth ≤ depth →
      Returns (Reader.value depth) value := by
  -- the reader recurs on the brackets that may still open, so the induction is on these, and
  -- elements and members are taken from the list that the value holds
  induction depth with
  | zero =>
    intro value hfloat _ hdepth
    refine returns_scalar hfloat ?_ ?_
    · rintro elements rfl
      exact absurd hdepth (Nat.not_succ_le_zero _)
    · rintro members rfl
      exact absurd hdepth (Nat.not_succ_le_zero _)
  | succ depth ih =>
    intro value hfloat hkeys hdepth
    cases value with
    | array elements =>
      have hfloats := floatFree_array_iff.mp hfloat
      refine returns_array hfloats fun element hmem => ?_
      have hle := depthOfElements_le_iff.mp (Nat.le_of_succ_le_succ hdepth) element hmem
      exact ih element (hfloats element hmem) (distinctKeys_array_iff.mp hkeys element hmem) hle
    | object members =>
      have hfloats := floatFree_object_iff.mp hfloat
      refine returns_object hkeys.nodup_keys fun member hmem => ?_
      have hle := depthOfMembers_le_iff.mp (Nat.le_of_succ_le_succ hdepth) member hmem
      exact ih member.2 (hfloats member hmem) (hkeys.of_mem hmem) hle
    | null | bool _ | number _ | string _ => exact returns_scalar hfloat nofun nofun

theorem parse_of_reads {text : List Char} (h : Reads (Reader.value maxDepth) text value []) :
    parse (.ofList text) = .ok value := by
  obtain ⟨shorter, hread⟩ := h
  rw [parse, String.toList_ofList, document, hread]
  rfl

/-- **A document is read back from its text**, if it holds no float and no more than `maxDepth`
brackets are nested in it. -/
theorem parse_print (hfloat : value.FloatFree) (hkeys : value.DistinctKeys)
    (hdepth : value.depth ≤ maxDepth) : parse value.print = .ok value := by
  have hreads := returns_value maxDepth value hfloat hkeys hdepth [] endsNumber_nil
  rw [List.append_nil] at hreads
  exact parse_of_reads hreads

end SchemaEnums.Json
