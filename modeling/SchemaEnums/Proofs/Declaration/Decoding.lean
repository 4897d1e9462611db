import Mathlib.Data.List.Basic
import SchemaEnums.Declaration
import SchemaEnums.Proofs.Json.StringLiteral

/-!
# Generated text read back

A generated text is a list of lines, because neither a literal nor a name without a line feed can end
one.  A line tells what it is by its first character: a header starts with a letter, the line of a
member with a quote, and the other lines are empty or a brace.  So the declarations can be read off
the lines from the back, the members first and then the name that they belong to.

* `lines`: the lines of a declaration, and `chars_eq_lines`: **a declaration is its lines.**
* `decode`: the reading of a text, line by line.
* `decode_render`: **what has been rendered is read back**, so no two lists of declarations are
  rendered to the same text.
-/

namespace SchemaEnums.Declaration

/-- What a declaration says, wherever it comes from: a name and members. -/
def content (declaration : Declaration) : String × List String :=
  (declaration.name, declaration.members)

/-! ### The lines of a declaration -/

/-- What stands in front of the name of a declaration. -/
def opening : List Char := "export enum ".toList

/-- What stands behind the name of a declaration, in the same line. -/
def bodyStart : List Char := [' ', '{']

/-- The lines of members: all but the last end with a comma.  For no members there is an empty
line. -/
def memberLines : List String → List (List Char)
  | [] => [[]]
  | [last] => [memberChars last]
  | member :: rest => (memberChars member ++ [',']) :: memberLines rest

/-- The lines of a declaration, without their ends. -/
def lines (declaration : Declaration) : List (List Char) :=
  (opening ++ declaration.name.toList ++ bodyStart) ::
    (memberLines declaration.members ++ [['}'], []])

/-- The text of lines. -/
def unlines (lines : List (List Char)) : List Char :=
  lines.flatMap (· ++ ['\n'])

theorem unlines_cons (line : List Char) (rest : List (List Char)) :
    unlines (line :: rest) = line ++ '\n' :: unlines rest := by
  rw [unlines, List.flatMap_cons, List.append_assoc]
  rfl

theorem unlines_append (front behind : List (List Char)) :
    unlines (front ++ behind) = unlines front ++ unlines behind :=
  List.flatMap_append

theorem unlines_memberLines (members : List String) :
    unlines (memberLines members) = [',', '\n'].intercalate (members.map memberChars) ++ ['\n'] := by
  induction members with
  | nil => rfl
  | cons member rest ih =>
    cases rest with
    | nil =>
      rw [memberLines, unlines_cons]
      simp [unlines, List.intercalate]
    | cons next rest =>
      have hlines : memberLines (member :: next :: rest) =
          (memberChars member ++ [',']) :: memberLines (next :: rest) := rfl
      rw [hlines, unlines_cons, ih]
      simp [List.intercalate]

/-- **A declaration is its lines.** -/
theorem chars_eq_lines (declaration : Declaration) :
    declaration.chars = unlines declaration.lines := by
  have hend : unlines [['}'], []] = ['}', '\n', '\n'] := rfl
  unfold chars enumChars lines opening
  -- what stands in front of the name does not matter, and comparing its characters would take long
  generalize "export enum ".toList = front
  rw [unlines_cons, unlines_append, unlines_memberLines, hend]
  simp [bodyStart]

theorem toList_render (declarations : List Declaration) :
    (render declarations).toList = unlines (declarations.flatMap lines) := by
  rw [render, String.toList_ofList, unlines, List.flatMap_assoc]
  apply List.flatMap_congr
  intro declaration _
  exact chars_eq_lines declaration

/-! ### No line holds a line feed -/

theorem lineFeed_notMem_memberChars (member : String) : '\n' ∉ memberChars member := by
  have hliteral := StringLiteral.lineFeed_notMem_chars member.toList
  simp [memberChars, hliteral]

theorem lineFeed_notMem_memberLines (members : List String) :
    ∀ line ∈ memberLines members, '\n' ∉ line := by
  induction members with
  | nil => simp [memberLines]
  | cons member rest ih =>
    have hmember := lineFeed_notMem_memberChars member
    cases rest with
    | nil => simpa [memberLines] using hmember
    | cons next rest =>
      intro line hline
      rcases List.mem_cons.mp hline with rfl | hline
      · simp [hmember]
      · exact ih line hline

theorem lineFeed_notMem_lines {declaration : Declaration} (h : '\n' ∉ declaration.name.toList) :
    ∀ line ∈ declaration.lines, '\n' ∉ line := by
  have hopening : '\n' ∉ opening := by decide
  intro line hline
  rw [lines, List.mem_cons] at hline
  rcases hline with rfl | hline
  · simp only [bodyStart, List.mem_append, hopening, h, false_or]
    decide
  · rcases List.mem_append.mp hline with hmember | hend
    · exact lineFeed_notMem_memberLines declaration.members line hmember
    · simp only [List.mem_cons, List.not_mem_nil, or_false] at hend
      rcases hend with rfl | rfl
      · decide
      · decide

/-- Lines without a line feed are what a text of them splits into; behind the last one is nothing. -/
theorem splitOn_unlines {lines : List (List Char)} (h : ∀ line ∈ lines, '\n' ∉ line) :
    (unlines lines).splitOn '\n' = lines ++ [[]] := by
  induction lines with
  | nil => simp [unlines]
  | cons line rest ih =>
    obtain ⟨hline, hrest⟩ := List.forall_mem_cons.mp h
    rw [unlines_cons, List.splitOn_append_cons_self, List.splitOn_eq_singleton hline, ih hrest]
    rfl

/-! ### Reading -/

/-- The name in the header of a declaration. -/
def nameIn? (line : List Char) : Option String :=
  if opening.isPrefixOf line then
    (dropEnding? bodyStart (line.drop opening.length)).map String.ofList
  else none

/-- The text of the literal that a line starts with. -/
def memberIn? : List Char → Option String
  | '"' :: rest =>
    match Json.Reader.string rest with
    | .ok read => some read.value
    | .error _ => none
  | _ => none

/-- Reads one more line, from the back.  What has been read are members without a name, and
declarations; a header gives the members their name. -/
def readLine (line : List Char) (read : List String × List (String × List String)) :
    List String × List (String × List String) :=
  match nameIn? line, memberIn? line with
  | some name, _ => ([], (name, read.1) :: read.2)
  | none, some member => (member :: read.1, read.2)
  | none, none => read

/-- The declarations in a text, in its order. -/
def decode (text : String) : List (String × List String) :=
  ((text.toList.splitOn '\n').foldr readLine ([], [])).2

variable {read : List String × List (String × List String)}

theorem readLine_header (name : String) :
    readLine (opening ++ name.toList ++ bodyStart) read = ([], (name, read.1) :: read.2) := by
  have hname : nameIn? (opening ++ name.toList ++ bodyStart) = some name := by
    have hprefix : opening.isPrefixOf (opening ++ name.toList ++ bodyStart) := by
      rw [List.isPrefixOf_iff_prefix, List.append_assoc]
      exact List.prefix_append _ _
    have hsuffix : bodyStart.isSuffixOf (name.toList ++ bodyStart) := by
      rw [List.isSuffixOf_iff_suffix]
      exact List.suffix_append _ _
    rw [nameIn?, if_pos hprefix, List.append_assoc, List.drop_left, dropEnding?, if_pos hsuffix]
    simp
  rw [readLine, hname]

theorem readLine_member (member : String) (behind : List Char) :
    readLine (memberChars member ++ behind) read = (member :: read.1, read.2) := by
  obtain ⟨rest, hline⟩ : ∃ rest, memberChars member ++ behind =
      '"' :: (StringLiteral.body member.toList ++ '"' :: rest) := by
    refine ⟨[' ', '=', ' '] ++ StringLiteral.chars member.toList ++ behind, ?_⟩
    simp [memberChars, StringLiteral.chars]
  obtain ⟨shorter, hread⟩ := StringLiteral.characters_body member.toList rest
  have hname : nameIn? (memberChars member ++ behind) = none := by
    rw [hline]
    rfl
  have hmember : memberIn? (memberChars member ++ behind) = some member := by
    rw [hline, memberIn?, Json.Reader.string, hread]
    simp
  rw [readLine, hname, hmember]

theorem foldr_memberLines (members : List String) :
    (memberLines members).foldr readLine read = (members ++ read.1, read.2) := by
  induction members with
  | nil => rfl
  | cons member rest ih =>
    cases rest with
    | nil =>
      have hline : readLine (memberChars member ++ []) read = (member :: read.1, read.2) :=
        readLine_member member []
      rw [List.append_nil] at hline
      exact hline
    | cons next rest =>
      have hlines : memberLines (member :: next :: rest) =
          (memberChars member ++ [',']) :: memberLines (next :: rest) := rfl
      rw [hlines, List.foldr_cons, ih, readLine_member]
      rfl

/-- The lines of a declaration add its content to what is read behind it. -/
theorem foldr_lines (declaration : Declaration) (done : List (String × List String)) :
    declaration.lines.foldr readLine ([], done) = ([], declaration.content :: done) := by
  have hend : [['}'], []].foldr readLine ([], done) = ([], done) := rfl
  rw [lines, List.foldr_cons, List.foldr_append, hend, foldr_memberLines, readLine_header,
    List.append_nil]
  rfl

theorem foldr_flatMap_lines (declarations : List Declaration) :
    (declarations.flatMap lines).foldr readLine ([], []) = ([], declarations.map content) := by
  induction declarations with
  | nil => rfl
  | cons declaration rest ih =>
    rw [List.flatMap_cons, List.foldr_append, ih, foldr_lines]
    rfl

theorem decode_of_lineFeed_notMem {declarations : List Declaration}
    (h : ∀ declaration ∈ declarations, '\n' ∉ declaration.name.toList) :
    decode (render declarations) = declarations.map content := by
  have hlines : ∀ line ∈ declarations.flatMap lines, '\n' ∉ line := by
    intro line hline
    obtain ⟨declaration, hmem, hline⟩ := List.mem_flatMap.mp hline
    exact lineFeed_notMem_lines (h declaration hmem) line hline
  have hempty : readLine [] ([], []) = ([], []) := rfl
  rw [decode, toList_render, splitOn_unlines hlines, List.foldr_append, List.foldr_cons,
    List.foldr_nil, hempty, foldr_flatMap_lines]

/-- **What has been rendered is read back**: as long as no name holds a line feed, the text tells the
names and the members of all declarations, in their order, whatever the members are.  So no other
such list is rendered to the same text. -/
theorem decode_render (declarations : List Declaration)
    (h : ∀ declaration ∈ declarations, '\n' ∉ declaration.name.toList) :
    decode (render declarations) = declarations.map content ∧
      ∀ others : List Declaration, (∀ other ∈ others, '\n' ∉ other.name.toList) →
        render others = render declarations → others.map content = declarations.map content := by
  refine ⟨decode_of_lineFeed_notMem h, ?_⟩
  intro others hothers hsame
  rw [← decode_of_lineFeed_notMem hothers, hsame, decode_of_lineFeed_notMem h]

/-- A member that looks like the end of a declaration and the start of another one. -/
def forgedMember : String :=
  "\"\n".push '}' ++ "\n\nexport enum b ".push '{' ++ "\n\""

/-- Such a member among others, no members, and a single empty one. -/
def forged : List Declaration :=
  [⟨"a", [forgedMember, "\\\",", ""], ⟨"a.json"⟩⟩, ⟨"b ".push '{', [], ⟨"b.json"⟩⟩,
    ⟨"", [""], ⟨"c.json"⟩⟩]

/-- The members do not forge anything, and the files the declarations come from do not show. -/
theorem decode_render_forged :
    (∀ declaration ∈ forged, '\n' ∉ declaration.name.toList) ∧
      decode (render forged) =
        [("a", [forgedMember, "\\\",", ""]), ("b ".push '{', []), ("", [""])] ∧
      (forged.map fun declaration => ⟨declaration.name, declaration.members, ⟨"d.json"⟩⟩).map content =
        forged.map content := by
  have hnames : ∀ declaration ∈ forged, '\n' ∉ declaration.name.toList := by decide
  obtain ⟨hdecode, hothers⟩ := decode_render forged hnames
  exact ⟨hnames, hdecode, hothers _ (by decide) rfl⟩

end SchemaEnums.Declaration
