import SchemaEnums.Proofs.Declaration.Decoding

/-!
# The headers in a generated text

Whoever looks through a generated text for its enums looks for lines that start with `export enum ` and
end with a brace.  No line of a member is one, because it starts with a quote.  But a name stands in
the text as it is: with a line feed in it, the header it belongs to is no single line any more, and
may be none or several.

* `headers`: the lines of a text that look like headers.
* `headers_render`: **they come from the headers of the declarations, and from nothing else.**
* `headers_headerChars`: the header of a name without a line feed is one of them.
-/

namespace SchemaEnums.Declaration

/-- A line that looks like a header: it starts with `export enum ` and ends with ` {`. -/
def IsHeader (line : List Char) : Prop :=
  opening <+: line ∧ bodyStart <:+ line

instance : DecidablePred IsHeader := fun line => by
  unfold IsHeader
  infer_instance

/-- The lines of a text that look like headers. -/
def headers (text : List Char) : List (List Char) :=
  (text.splitOn '\n').filter IsHeader

/-- What a declaration of the given name starts with, up to the end of the line. -/
def headerChars (name : String) : List Char :=
  opening ++ name.toList ++ bodyStart

theorem headers_append_lineFeed (front behind : List Char) :
    headers (front ++ '\n' :: behind) = headers front ++ headers behind := by
  rw [headers, List.splitOn_append_cons_self, List.filter_append]
  rfl

theorem headers_of_lineFeed_notMem {line : List Char} (h : '\n' ∉ line) :
    headers line = [line].filter IsHeader := by
  rw [headers, List.splitOn_eq_singleton h]

/-! ### Lines that do not look like headers -/

theorem head?_of_isHeader {line : List Char} (h : IsHeader line) : line.head? = some 'e' := by
  obtain ⟨⟨rest, rfl⟩, -⟩ := h
  rfl

theorem not_isHeader_memberLines (members : List String) :
    ∀ line ∈ memberLines members, ¬ IsHeader line := by
  have hquote (member : String) (behind : List Char) : ¬ IsHeader (memberChars member ++ behind) := by
    intro h
    cases head?_of_isHeader h
  induction members with
  | nil =>
    intro line hline h
    cases List.mem_singleton.mp hline
    cases head?_of_isHeader h
  | cons member rest ih =>
    cases rest with
    | nil =>
      intro line hline
      cases List.mem_singleton.mp hline
      rw [← List.append_nil (memberChars member)]
      exact hquote member []
    | cons next rest =>
      intro line hline
      rcases List.mem_cons.mp hline with rfl | hline
      · exact hquote member [',']
      · exact ih line hline

theorem headers_unlines_append {lines : List (List Char)} (hfeed : ∀ line ∈ lines, '\n' ∉ line)
    (hnone : ∀ line ∈ lines, ¬ IsHeader line) (behind : List Char) :
    headers (unlines lines ++ behind) = headers behind := by
  induction lines with
  | nil => rfl
  | cons line rest ih =>
    obtain ⟨hline, hrest⟩ := List.forall_mem_cons.mp hfeed
    obtain ⟨hfirst, hothers⟩ := List.forall_mem_cons.mp hnone
    rw [unlines_cons, List.append_assoc, List.cons_append, headers_append_lineFeed, ih hrest hothers,
      headers_of_lineFeed_notMem hline, List.filter_cons_of_neg (by simpa using hfirst)]
    rfl

/-! ### The headers of declarations -/

/-- The header of a name without a line feed is one line, and looks like a header. -/
theorem headers_headerChars {name : String} (h : '\n' ∉ name.toList) :
    headers (headerChars name) = [headerChars name] := by
  have hopening : '\n' ∉ opening := by decide
  have hfeed : '\n' ∉ headerChars name := by
    simp only [headerChars, bodyStart, List.mem_append, hopening, h, false_or]
    decide
  have hheader : IsHeader (headerChars name) := by
    refine ⟨?_, List.suffix_append _ _⟩
    rw [headerChars, List.append_assoc]
    exact List.prefix_append _ _
  rw [headers_of_lineFeed_notMem hfeed, List.filter_cons_of_pos (by simpa using hheader)]
  rfl

theorem headers_chars_append (declaration : Declaration) (behind : List Char) :
    headers (declaration.chars ++ behind) =
      headers (headerChars declaration.name) ++ headers behind := by
  have hfeed : ∀ line ∈ memberLines declaration.members ++ [['}'], []], '\n' ∉ line :=
    List.forall_mem_append.mpr ⟨lineFeed_notMem_memberLines _, by decide⟩
  have hend : ∀ line ∈ [['}'], []], ¬ IsHeader line := by
    have hhead : ∀ line ∈ [['}'], []], line.head? ≠ some 'e' := by decide
    intro line hline h
    exact hhead line hline (head?_of_isHeader h)
  have hnone : ∀ line ∈ memberLines declaration.members ++ [['}'], []], ¬ IsHeader line :=
    List.forall_mem_append.mpr ⟨not_isHeader_memberLines _, hend⟩
  rw [chars_eq_lines, lines, unlines_cons, List.append_assoc, List.cons_append,
    headers_append_lineFeed, headers_unlines_append hfeed hnone]
  rfl

/-- **What looks like a header in a text of declarations comes from their headers**, one declaration
after the other, and never from a member. -/
theorem headers_render (declarations : List Declaration) :
    headers (render declarations).toList =
      declarations.flatMap fun declaration => headers (headerChars declaration.name) := by
  rw [render, String.toList_ofList]
  induction declarations with
  | nil => rfl
  | cons declaration rest ih =>
    rw [List.flatMap_cons, headers_chars_append, ih, List.flatMap_cons]

end SchemaEnums.Declaration
