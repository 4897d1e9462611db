import SchemaEnums.Proofs.Declaration.Headers
import SchemaEnums.Proofs.Script.StringLiteral

/-!
# The two sides of a member

A member is its own literal on both sides of an equals sign.  A literal tells where it ends, so who
reads the left side stands in front of ` = `, and who reads the right side stands in front of what
follows: the next member, the end of the declaration, or a text that starts with a quote.  This only
takes a reader that gets along with literals, and there are two: that of documents, which a literal
is borrowed from, and that of scripts, which a declaration is written for.

* `sides?`: the sides of the member in front of a text, read by any reader of literals.
* `enumChars_append`: what stands in front of a member, and behind it.
* `sides_of_rendered`: **literals read back by both readers, and so do the sides of every rendered
  member.**
-/

namespace SchemaEnums.Declaration

variable {α : Type} {literal? : List Char → Option (α × List Char)} {value : String → α}

/-- The two sides of the member in front of a text, and the text behind them. -/
def sides? (literal? : List Char → Option (α × List Char)) (text : List Char) :
    Option ((α × α) × List Char) :=
  match literal? text with
  | some (left, ' ' :: '=' :: ' ' :: behind) =>
    (literal? behind).map fun (right, rest) => ((left, right), rest)
  | _ => none

/-- A reader that gets along with literals reads both sides of a member, and stops behind it. -/
theorem sides?_memberChars
    (hliteral : ∀ text rest,
      literal? (StringLiteral.chars text.toList ++ rest) = some (value text, rest))
    (member : String) (rest : List Char) :
    sides? literal? (memberChars member ++ rest) = some ((value member, value member), rest) := by
  have hleft : literal? (memberChars member ++ rest) =
      some (value member, ' ' :: '=' :: ' ' :: (StringLiteral.chars member.toList ++ rest)) := by
    rw [memberChars, List.append_assoc, List.append_assoc]
    exact hliteral member _
  rw [sides?, hleft]
  show (literal? (StringLiteral.chars member.toList ++ rest)).map _ = _
  rw [hliteral member rest]
  rfl

/-! ### Where the members stand -/

/-- What stands in front of a member: the header, and the lines of the members before it. -/
def textBefore (name : String) (before : List String) : List Char :=
  headerChars name ++ '\n' :: before.flatMap fun member => memberChars member ++ [',', '\n']

/-- What stands behind a member: the end of its line, the members after it, and the brace. -/
def textBehind (behind : List String) : List Char :=
  (behind.flatMap fun member => [',', '\n'] ++ memberChars member) ++ ['\n', '}', '\n', '\n']

variable {separator : List Char}

theorem intercalate_cons (line : List Char) (behind : List (List Char)) :
    separator.intercalate (line :: behind) = line ++ behind.flatMap (separator ++ ·) := by
  induction behind generalizing line with
  | nil => simp
  | cons next behind ih =>
    rw [List.intercalate_cons_cons, ih, List.flatMap_cons]
    simp only [List.append_assoc]

theorem intercalate_append_cons (before behind : List (List Char)) (line : List Char) :
    separator.intercalate (before ++ line :: behind) =
      before.flatMap (· ++ separator) ++ line ++ behind.flatMap (separator ++ ·) := by
  induction before with
  | nil => exact intercalate_cons line behind
  | cons first before ih =>
    rw [List.cons_append, List.intercalate_cons_of_ne_nil (List.append_ne_nil_of_right_ne_nil _
      (List.cons_ne_nil _ _)), ih, List.flatMap_cons]
    simp only [List.append_assoc]

/-- **Each member stands between the members before it and those behind it.** -/
theorem enumChars_append (name : String) (before : List String) (member : String)
    (behind : List String) :
    enumChars name (before ++ member :: behind) =
      textBefore name before ++ memberChars member ++ textBehind behind := by
  unfold enumChars textBefore textBehind headerChars opening
  -- what stands in front of the name does not matter, and comparing its characters would take long
  generalize "export enum ".toList = front
  rw [List.map_append, List.map_cons, intercalate_append_cons]
  simp [bodyStart, List.flatMap_map]

/-! ### Literals and members read back -/

/-- **Literals read back by both readers, and so do the sides of every rendered member.**  A literal
ends where its reader stops, whatever stands behind it: it has the text as its value by the rules of
documents, and the code units of the text, which tell it, by the rules of scripts.  None of its
characters is a control character, so it never holds a line feed.  In a rendered declaration each
member stands between those before and those behind it, and both its sides have the value of the
member, whatever stands behind it. -/
theorem sides_of_rendered :
    (∀ (text : String) (rest : List Char),
      StringLiteral.read? (StringLiteral.chars text.toList ++ rest) = some (text, rest) ∧
        Script.literal? (StringLiteral.chars text.toList ++ rest) =
          some (Script.utf16 text.toList, rest)) ∧
      Function.Injective Script.utf16 ∧
      (∀ text : String, (∀ c ∈ StringLiteral.chars text.toList, 0x20 ≤ c.toNat) ∧
        '\n' ∉ StringLiteral.chars text.toList) ∧
      ∀ (name : String) (before : List String) (member : String) (behind : List String),
        (renderEnum name (before ++ member :: behind)).toList =
            textBefore name before ++ memberChars member ++ textBehind behind ∧
          ∀ rest : List Char,
            sides? StringLiteral.read? (memberChars member ++ rest) = some ((member, member), rest) ∧
              sides? Script.literal? (memberChars member ++ rest) =
                some ((Script.utf16 member.toList, Script.utf16 member.toList), rest) := by
  have hscript (text : String) (rest : List Char) :
      Script.literal? (StringLiteral.chars text.toList ++ rest) =
        some (Script.utf16 text.toList, rest) :=
    Script.literal?_chars text.toList rest
  refine ⟨?_, Script.utf16_injective, ?_, ?_⟩
  · exact fun text rest => ⟨StringLiteral.read?_chars text rest, hscript text rest⟩
  · intro text
    exact ⟨fun c hc => StringLiteral.le_toNat_of_mem_chars hc,
      StringLiteral.lineFeed_notMem_chars text.toList⟩
  · intro name before member behind
    constructor
    · rw [renderEnum, String.toList_ofList, enumChars_append]
    · intro rest
      exact ⟨sides?_memberChars StringLiteral.read?_chars member rest,
        sides?_memberChars hscript member rest⟩

/-- Backslashes in front of a quote, a control character and a character of two code units, with a
text behind them that starts with a quote. -/
theorem sides_of_rendered_quotes :
    StringLiteral.read? "\"\\\\\\\"\\u0001😀\"\"\\".toList = some ("\\\"\x01😀", ['"', '\\']) ∧
      Script.literal? "\"\\\\\\\"\\u0001😀\"\"\\".toList =
        some ([0x5C, 0x22, 0x01, 0xD83D, 0xDE00], ['"', '\\']) := by
  have hchars : "\"\\\\\\\"\\u0001😀\"\"\\".toList =
      StringLiteral.chars "\\\"\x01😀".toList ++ ['"', '\\'] := by decide
  obtain ⟨hliteral, -⟩ := sides_of_rendered
  rw [hchars]
  exact hliteral "\\\"\x01😀" ['"', '\\']

end SchemaEnums.Declaration
