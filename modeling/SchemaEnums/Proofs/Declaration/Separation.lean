import Mathlib.Data.List.DropRight
import SchemaEnums.Proofs.Declaration.Headers

/-!
# The name and the members of one declaration

A name stands in a declaration as it is.  With line feeds in it the header is several lines, and they
may look like whole declarations with members and braces of their own.  Still the last line of the
header ends with ` {`, and no line behind it does: the line of a member ends with a quote or a
comma.  So the last line that ends with ` {` separates the name from the members.

* `headerLines`, `linesBehind`: the lines of a text up to the last one that ends with ` {`, and those
  behind it.
* `headerLines_enumChars`, `linesBehind_enumChars`: **of a declaration these are the lines of its
  header, and those of its members.**
* `renderEnum_eq_iff`: so **no two declarations have the same text.**
-/

namespace SchemaEnums.Declaration

/-- Whether a line ends the way a header does. -/
def endsHeader (line : List Char) : Bool :=
  bodyStart.isSuffixOf line

/-- The lines of a text up to the last one that ends the way a header does. -/
def headerLines (text : List Char) : List (List Char) :=
  (text.splitOn '\n').rdropWhile fun line => ! endsHeader line

/-- The lines behind the last one that ends the way a header does. -/
def linesBehind (text : List Char) : List (List Char) :=
  (text.splitOn '\n').rtakeWhile fun line => ! endsHeader line

/-! ### The lines behind a header -/

theorem getLast?_of_endsHeader {line : List Char} (h : endsHeader line) :
    line.getLast? = some '{' := by
  obtain ⟨front, rfl⟩ := List.isSuffixOf_iff_suffix.mp h
  rw [List.getLast?_append]
  rfl

theorem getLast?_memberChars (member : String) : (memberChars member).getLast? = some '"' := by
  rw [memberChars, StringLiteral.chars, List.getLast?_append, List.getLast?_cons,
    List.getLast?_append]
  rfl

theorem not_endsHeader_memberLines (members : List String) :
    ∀ line ∈ memberLines members, endsHeader line = false := by
  -- a line of members has a quote or a comma at its end, or nothing at all
  have hlast : ∀ line ∈ memberLines members, line.getLast? ≠ some '{' := by
    induction members with
    | nil =>
      intro line hline
      cases List.mem_singleton.mp hline
      decide
    | cons member rest ih =>
      cases rest with
      | nil =>
        intro line hline
        cases List.mem_singleton.mp hline
        rw [getLast?_memberChars]
        decide
      | cons next rest =>
        intro line hline
        rcases List.mem_cons.mp hline with rfl | hline
        · rw [List.getLast?_append]
          show some ',' ≠ some '{'
          decide
        · exact ih line hline
  intro line hline
  by_contra h
  exact hlast line hline (getLast?_of_endsHeader (by simpa using h))

/-- What stands behind a header, up to the end of the text. -/
def linesOfBody (members : List String) : List (List Char) :=
  memberLines members ++ [['}'], [], []]

theorem not_endsHeader_linesOfBody (members : List String) :
    ∀ line ∈ linesOfBody members, endsHeader line = false :=
  List.forall_mem_append.mpr ⟨not_endsHeader_memberLines members, by decide⟩

/-! ### The last line of a header -/

/-- A text that ends with a part of a line has this part at the end of its last line. -/
theorem exists_splitOn_append {tail : List Char} (htail : '\n' ∉ tail) (text : List Char) :
    ∃ front last, (text ++ tail).splitOn '\n' = front ++ [last] ∧ tail <:+ last := by
  induction text with
  | nil => exact ⟨[], tail, List.splitOn_eq_singleton htail, List.suffix_rfl⟩
  | cons c rest ih =>
    obtain ⟨front, last, hsplit, hsuffix⟩ := ih
    by_cases hc : c = '\n'
    · subst hc
      have hline := List.splitOn_append_cons_self (a := '\n') [] (rest ++ tail)
      refine ⟨[] :: front, last, ?_, hsuffix⟩
      rw [hsplit] at hline
      exact hline
    · have hcons : (c :: (rest ++ tail)).splitOn '\n' = (front ++ [last]).modifyHead (c :: ·) := by
        rw [← hsplit, List.splitOn, List.splitOnP_cons_eq_if_modifyHead, if_neg (by simpa using hc)]
        rfl
      cases front with
      | nil => exact ⟨[], c :: last, hcons, hsuffix.trans (List.suffix_cons c last)⟩
      | cons first front => exact ⟨(c :: first) :: front, last, hcons, hsuffix⟩

/-- The last line of a header ends the way a header does, whatever the name is. -/
theorem exists_splitOn_headerChars (name : String) :
    ∃ front last, (headerChars name).splitOn '\n' = front ++ [last] ∧ endsHeader last := by
  have htail : '\n' ∉ bodyStart := by decide
  obtain ⟨front, last, hsplit, hsuffix⟩ := exists_splitOn_append htail (opening ++ name.toList)
  exact ⟨front, last, hsplit, List.isSuffixOf_iff_suffix.mpr hsuffix⟩

/-! ### A declaration -/

theorem splitOn_enumChars (name : String) (members : List String) :
    (enumChars name members).splitOn '\n' =
      (headerChars name).splitOn '\n' ++ linesOfBody members := by
  have hchars : enumChars name members =
      headerChars name ++ '\n' :: unlines (memberLines members ++ [['}'], []]) := by
    have hlines := chars_eq_lines ⟨name, members, ⟨""⟩⟩
    rw [lines, unlines_cons] at hlines
    exact hlines
  have hfeed : ∀ line ∈ memberLines members ++ [['}'], []], '\n' ∉ line :=
    List.forall_mem_append.mpr ⟨lineFeed_notMem_memberLines members, by decide⟩
  rw [hchars, List.splitOn_append_cons_self, splitOn_unlines hfeed, linesOfBody, List.append_assoc]
  rfl

/-- **The lines up to the last one that ends with ` {` are those of the header.** -/
theorem headerLines_enumChars (name : String) (members : List String) :
    headerLines (enumChars name members) = (headerChars name).splitOn '\n' := by
  obtain ⟨front, last, hsplit, hlast⟩ := exists_splitOn_headerChars name
  have hbody : ∀ line ∈ (linesOfBody members).reverse, (! endsHeader line) = true := by
    simpa using not_endsHeader_linesOfBody members
  have hend : ¬ (! endsHeader last) = true := by simp [hlast]
  rw [headerLines, splitOn_enumChars, hsplit, List.rdropWhile, List.reverse_append,
    List.dropWhile_append_of_pos hbody, ← List.rdropWhile]
  exact List.rdropWhile_concat_neg _ front last hend

/-- **The lines behind it are those of the members**, and of the brace. -/
theorem linesBehind_enumChars (name : String) (members : List String) :
    linesBehind (enumChars name members) = linesOfBody members := by
  have hwhole : headerLines (enumChars name members) ++ linesBehind (enumChars name members) =
      (enumChars name members).splitOn '\n' := List.rdropWhile_append_rtakeWhile
  rw [headerLines_enumChars, splitOn_enumChars] at hwhole
  exact List.append_cancel_left hwhole

theorem headerChars_injective : Function.Injective headerChars := by
  intro name other h
  exact String.toList_inj.mp (List.append_cancel_left (List.append_cancel_right h))

theorem memberLines_injective : Function.Injective memberLines := by
  intro members others h
  have hread := congrArg (List.foldr readLine ([], [])) h
  rw [foldr_memberLines, foldr_memberLines, List.append_nil, List.append_nil] at hread
  exact congrArg Prod.fst hread

/-- **No two declarations have the same text**: it tells the name, even one that holds line feeds or
looks like a declaration itself, and the members. -/
theorem renderEnum_eq_iff (name other : String) (members others : List String) :
    renderEnum name members = renderEnum other others ↔ name = other ∧ members = others := by
  constructor
  · intro h
    have hchars : enumChars name members = enumChars other others := by
      have htext := congrArg String.toList h
      rwa [renderEnum, renderEnum, String.toList_ofList, String.toList_ofList] at htext
    have hheader : (headerChars name).splitOn '\n' = (headerChars other).splitOn '\n' := by
      rw [← headerLines_enumChars name members, hchars, headerLines_enumChars]
    have hbody : linesOfBody members = linesOfBody others := by
      rw [← linesBehind_enumChars name members, hchars, linesBehind_enumChars]
    refine ⟨headerChars_injective ?_, memberLines_injective (List.append_cancel_right hbody)⟩
    have hjoined := congrArg (List.intercalate ['\n']) hheader
    rwa [List.intercalate_splitOn, List.intercalate_splitOn] at hjoined
  · rintro ⟨rfl, rfl⟩
    rfl

/-- Several declarations may have the text of a single one whose name holds line feeds. -/
example :
    let name := "a ".push '{' ++ "\n\"A\" = \"A\"\n".push '}' ++ "\n\nexport enum b"
    render [⟨name, ["B"], ⟨"c.json"⟩⟩] =
      render [⟨"a", ["A"], ⟨"c.json"⟩⟩, ⟨"b", ["B"], ⟨"c.json"⟩⟩] := by
  decide

end SchemaEnums.Declaration
