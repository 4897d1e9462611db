import Mathlib.Data.List.TakeWhile
import SchemaEnums.CommandLine.Arguments

/-!
# Arranging a command line

A command line is made of pieces: a directory, or an option with its value, which is joined to the
option or stands behind it.  However the pieces are arranged, they say the same, as long as the two
directories keep their order and no option comes twice.

* `Piece.spell`: the arguments that a piece is written as.
* `Arranges`: pieces that name two directories and each option at most once.
* `exists_readAll_spell`: **one piece adds what it says to what has been said before it.**
* `parse_spell`: **arranged pieces are read as what they say.**
-/

namespace SchemaEnums.CommandLine

/-- An option with its value. -/
inductive Choice where
  | fileName (name : String)
  | discovery (policy : DiscoveryPolicy)
  | duplicates (policy : DuplicatePolicy)

namespace Choice

/-- The option of a choice. -/
def setting : Choice → Setting
  | fileName _ => .fileName
  | discovery _ => .discovery
  | duplicates _ => .duplicates

/-- The value of a choice, as it is written. -/
def value : Choice → String
  | fileName name => name
  | discovery policy => policy.name
  | duplicates policy => policy.name

end Choice

/-- A piece of a command line. -/
inductive Piece where
  | directory (path : String)
  /-- An option, with its value behind an equals sign or in an argument of its own. -/
  | option (choice : Choice) (joined : Bool)

namespace Piece

/-- The arguments of a piece. -/
def spell : Piece → List String
  | directory path => [path]
  | option choice true => ["--" ++ choice.setting.name ++ "=" ++ choice.value]
  | option choice false => ["--" ++ choice.setting.name, choice.value]

/-- The directory that a piece names. -/
def directory? : Piece → Option String
  | directory path => some path
  | _ => none

/-- The file name that a piece chooses. -/
def fileName? : Piece → Option String
  | option (.fileName name) _ => some name
  | _ => none

/-- The policy on directories that a piece chooses. -/
def discovery? : Piece → Option DiscoveryPolicy
  | option (.discovery policy) _ => some policy
  | _ => none

/-- The policy on names that a piece chooses. -/
def duplicates? : Piece → Option DuplicatePolicy
  | option (.duplicates policy) _ => some policy
  | _ => none

end Piece

/-- A text that cannot be taken for an option. -/
def Undashed (text : String) : Prop :=
  text.toList.head? ≠ some '-'

instance (text : String) : Decidable (Undashed text) :=
  inferInstanceAs (Decidable (_ ≠ _))

/-- Pieces that name the two directories in their order and make the given choices, in any order and
anywhere among the directories. -/
structure Arranges (pieces : List Piece) (input output : String) (fileName : Option String)
    (discovery : Option DiscoveryPolicy) (duplicates : Option DuplicatePolicy) : Prop where
  directories : pieces.filterMap Piece.directory? = [input, output]
  fileName : pieces.filterMap Piece.fileName? = fileName.toList
  discovery : pieces.filterMap Piece.discovery? = discovery.toList
  duplicates : pieces.filterMap Piece.duplicates? = duplicates.toList

/-! ### What an argument looks like -/

theorem Token.ofText_of_undashed {text : String} (h : Undashed text) : ofText text = .plain text := by
  unfold ofText
  split
  · rename_i htext
    exact absurd (congrArg List.head? htext) h
  · rename_i htext
    exact absurd (congrArg List.head? htext) h
  · rename_i htext
    exact absurd (congrArg List.head? htext) h
  · rfl

theorem Token.ofText_separate (setting : Setting) :
    ofText ("--" ++ setting.name) = .long setting.name none := by
  cases setting <;> decide

theorem Token.ofText_of_dashes {text : String} {rest : List Char} (hne : rest ≠ [])
    (h : text.toList = '-' :: '-' :: rest) :
    ofText text =
      match rest.dropWhile (· ≠ '=') with
      | _ :: value => .long (.ofList (rest.takeWhile (· ≠ '='))) (some (.ofList value))
      | [] => .long (.ofList (rest.takeWhile (· ≠ '='))) none := by
  obtain ⟨c, letters, rfl⟩ := List.exists_cons_of_ne_nil hne
  unfold ofText
  rw [h]
  rfl

theorem Token.ofText_joined (setting : Setting) (value : String) :
    ofText ("--" ++ setting.name ++ "=" ++ value) = .long setting.name (some value) := by
  have hequals : '=' ∉ setting.name.toList := by cases setting <;> decide
  have htext : ("--" ++ setting.name ++ "=" ++ value).toList =
      '-' :: '-' :: (setting.name.toList ++ '=' :: value.toList) := by
    simp [String.toList_append]
  have hall : ∀ d ∈ setting.name.toList, decide (d ≠ '=') = true := by
    intro d hd
    exact decide_eq_true (ne_of_mem_of_not_mem hd hequals)
  rw [ofText_of_dashes (by simp) htext, List.takeWhile_append_of_pos hall,
    List.dropWhile_append_of_pos hall]
  simp

/-! ### What a piece adds -/

namespace Progress

variable {progress said : Progress}

/-- What is known of an option is checked at the next argument; the rest stays as it is. -/
theorem assign_eq_ok {setting : Setting} {value : Option String}
    (h : progress.assign setting value = .ok said) :
    said.directories = progress.directories ∧ said.pending = progress.pending ∧
      said.ended = progress.ended := by
  unfold assign at h
  split at h
  · cases h
  split at h
  · split at h
    · cases h
    · cases h
      exact ⟨rfl, rfl, rfl⟩
  · split at h
    · cases h
    split at h
    · cases h
    · cases h
      exact ⟨rfl, rfl, rfl⟩
  · split at h
    · cases h
    split at h
    · cases h
    · cases h
      exact ⟨rfl, rfl, rfl⟩

theorem settle_eq_ok (h : progress.settle = .ok said) :
    said.directories = progress.directories ∧ said.pending = none ∧
      said.ended = progress.ended := by
  unfold settle at h
  split at h
  · rename_i hpending
    cases h
    exact ⟨rfl, hpending, rfl⟩
  · obtain ⟨hdirectories, hpending, hended⟩ := assign_eq_ok h
    exact ⟨hdirectories, hpending, hended⟩

/-- The progress with a choice made. -/
def choose (progress : Progress) : Choice → Progress
  | .fileName name => { progress with fileName := some name }
  | .discovery policy => { progress with discovery := some policy }
  | .duplicates policy => { progress with duplicates := some policy }

/-- What a piece says, added to what has been said. -/
def add (progress : Progress) : Piece → Progress
  | .directory path => { progress with directories := progress.directories ++ [path] }
  | .option choice _ => progress.choose choice

/-- The option of a choice has not been given. -/
def Lacks (progress : Progress) : Choice → Prop
  | .fileName _ => progress.fileName = none
  | .discovery _ => progress.discovery = none
  | .duplicates _ => progress.duplicates = none

/-- There is room for one more piece: for a directory behind less than two, or for an option that
has not been given. -/
def HasRoom (progress : Progress) : Piece → Prop
  | .directory path => progress.directories.length < 2 ∧ Undashed path
  | .option choice _ => progress.Lacks choice ∧ Undashed choice.value

theorem assign_choice {choice : Choice} (h : said.Lacks choice) :
    said.assign choice.setting (some choice.value) = .ok (said.choose choice) := by
  cases choice with
  | fileName name =>
    have hnone : said.fileName = none := h
    simp [assign, Choice.setting, Choice.value, choose, hnone]
  | discovery policy =>
    have hnone : said.discovery = none := h
    have hname : policy.name ≠ "" ∧ DiscoveryPolicy.ofName? policy.name = some policy := by
      cases policy <;> decide
    simp [assign, assign.policy?, Choice.setting, Choice.value, choose, hnone, hname]
  | duplicates policy =>
    have hnone : said.duplicates = none := h
    have hname : policy.name ≠ "" ∧ DuplicatePolicy.ofName? policy.name = some policy := by
      cases policy <;> decide
    simp [assign, assign.policy?, Choice.setting, Choice.value, choose, hnone, hname]

theorem find?_setting (setting : Setting) :
    Setting.all.find? (·.name = setting.name) = some setting := by
  cases setting <;> decide

theorem step_of_undashed {text : String} (hended : progress.ended = false) (h : Undashed text) :
    progress.step text = (progress.plain text).map .inl := by
  simp only [step, hended, Token.ofText_of_undashed h, Bool.false_eq_true, if_false]

theorem step_of_long {text name : String} {value : Option String} (hended : progress.ended = false)
    (h : Token.ofText text = .long name value) :
    progress.step text = progress.long name value := by
  simp only [step, hended, h, Bool.false_eq_true, if_false]

theorem step_directory {path : String} (h : progress.settle = .ok said)
    (hended : progress.ended = false) (hroom : said.HasRoom (.directory path)) :
    progress.step path = .ok (.inl (said.add (.directory path))) := by
  obtain ⟨hlength, hundashed⟩ := hroom
  obtain ⟨hdirectories, -, -⟩ := settle_eq_ok h
  rw [step_of_undashed hended hundashed]
  unfold plain
  split
  · -- an option without a value cannot be settled
    rename_i setting _ hpending
    simp [settle, hpending, assign] at h
  · rw [← hdirectories, if_neg (by omega), h]
    rfl

theorem step_joined {choice : Choice} (h : progress.settle = .ok said)
    (hended : progress.ended = false) (hlacks : said.Lacks choice) :
    progress.step ("--" ++ choice.setting.name ++ "=" ++ choice.value) =
      .ok (.inl (said.choose choice)) := by
  rw [step_of_long hended (Token.ofText_joined _ _)]
  simp only [long, find?_setting, h, assign_choice hlacks]
  rfl

theorem step_separate (h : progress.settle = .ok said) (hended : progress.ended = false)
    (setting : Setting) :
    progress.step ("--" ++ setting.name) =
      .ok (.inl { said with pending := some (setting, none) }) := by
  rw [step_of_long hended (Token.ofText_separate _)]
  simp only [long, find?_setting, h]
  rfl

theorem step_value {value : String} (hended : said.ended = false) (hundashed : Undashed value)
    (setting : Setting) :
    { said with pending := some (setting, none) }.step value =
      .ok (.inl { said with pending := some (setting, some value) }) := by
  rw [step_of_undashed (by exact hended) hundashed]
  simp only [plain, hended]
  rfl

theorem readAll_of_step {text : String} (h : progress.step text = .ok (.inl said))
    (rest : List String) : progress.readAll (text :: rest) = said.readAll rest := by
  simp only [readAll, h]

/-- **One piece adds what it says to what has been said before it**, if there is room for it. -/
theorem exists_readAll_spell {piece : Piece} (h : progress.settle = .ok said)
    (hended : progress.ended = false) (hroom : said.HasRoom piece) (rest : List String) :
    ∃ next : Progress, progress.readAll (piece.spell ++ rest) = next.readAll rest ∧
      next.settle = .ok (said.add piece) ∧ next.ended = false := by
  obtain ⟨-, hpending, hsaid⟩ := settle_eq_ok h
  rw [hended] at hsaid
  have hsettled {more : Progress} (hnone : more.pending = none) : more.settle = .ok more := by
    rw [settle, hnone]
  cases piece with
  | directory path =>
    exact ⟨said.add (.directory path), readAll_of_step (step_directory h hended hroom) rest,
      hsettled hpending, hsaid⟩
  | option choice joined =>
    obtain ⟨hlacks, hundashed⟩ := hroom
    have hassign := assign_choice hlacks
    obtain ⟨-, hpending', hended'⟩ := assign_eq_ok hassign
    cases joined with
    | true =>
      exact ⟨said.choose choice, readAll_of_step (step_joined h hended hlacks) rest,
        hsettled (hpending'.trans hpending), hended'.trans hsaid⟩
    | false =>
      -- the value is checked with the next piece
      refine ⟨{ said with pending := some (choice.setting, some choice.value) }, ?_, ?_, hsaid⟩
      · refine (readAll_of_step (step_separate h hended choice.setting) _).trans ?_
        exact readAll_of_step (step_value hsaid hundashed choice.setting) rest
      · have hsame : { said with pending := none } = said := by rw [← hpending]
        simp only [settle, hsame]
        exact hassign

/-! ### What all pieces say -/

variable {piece : Piece} {pieces : List Piece} {input output : String} {fileName : Option String}
  {discovery : Option DiscoveryPolicy} {duplicates : Option DuplicatePolicy}

/-- What has been said and what the pieces say are together the two directories and the given
choices. -/
structure Completes (said : Progress) (pieces : List Piece) (input output : String)
    (fileName : Option String) (discovery : Option DiscoveryPolicy)
    (duplicates : Option DuplicatePolicy) : Prop where
  directories : said.directories ++ pieces.filterMap Piece.directory? = [input, output]
  fileName : said.fileName.toList ++ pieces.filterMap Piece.fileName? = fileName.toList
  discovery : said.discovery.toList ++ pieces.filterMap Piece.discovery? = discovery.toList
  duplicates : said.duplicates.toList ++ pieces.filterMap Piece.duplicates? = duplicates.toList

theorem eq_none_of_append_cons {α : Type} {before whole : Option α} {a : α} {rest : List α}
    (h : before.toList ++ a :: rest = whole.toList) : before = none ∧ whole = some a := by
  cases before with
  | none =>
    cases whole with
    | none => simp at h
    | some b => simpa [eq_comm] using (List.cons.inj h).1
  | some b => cases whole <;> simp at h

theorem eq_of_append_nil {α : Type} {before whole : Option α}
    (h : before.toList ++ [] = whole.toList) : before = whole := by
  simpa using congrArg List.head? h

theorem Completes.hasRoom (h : said.Completes (piece :: pieces) input output fileName discovery
    duplicates) (hinput : Undashed input) (houtput : Undashed output)
    (hfileName : ∀ name ∈ fileName, Undashed name) : said.HasRoom piece := by
  cases piece with
  | directory path =>
    have hall : said.directories ++ path :: pieces.filterMap Piece.directory? = [input, output] :=
      h.directories
    have hlength := congrArg List.length hall
    have hpath : path ∈ [input, output] := by
      rw [← hall]
      exact List.mem_append_right _ (.head _)
    have hundashed : ∀ path ∈ [input, output], Undashed path := by
      simp [hinput, houtput]
    simp only [List.length_append, List.length_cons, List.length_nil] at hlength
    exact ⟨by omega, hundashed path hpath⟩
  | option choice joined =>
    cases choice with
    | fileName name =>
      obtain ⟨hnone, rfl⟩ := eq_none_of_append_cons h.fileName
      exact ⟨hnone, hfileName name rfl⟩
    | discovery policy =>
      obtain ⟨hnone, -⟩ := eq_none_of_append_cons h.discovery
      exact ⟨hnone, by cases policy <;> decide⟩
    | duplicates policy =>
      obtain ⟨hnone, -⟩ := eq_none_of_append_cons h.duplicates
      exact ⟨hnone, by cases policy <;> decide⟩

theorem Completes.add (h : said.Completes (piece :: pieces) input output fileName discovery
    duplicates) (hroom : said.HasRoom piece) :
    (said.add piece).Completes pieces input output fileName discovery duplicates := by
  obtain ⟨hdirectories, hname, hdiscovery, hduplicates⟩ := h
  cases piece with
  | directory path =>
    refine ⟨?_, hname, hdiscovery, hduplicates⟩
    rw [← hdirectories]
    exact List.append_assoc _ [path] _
  | option choice joined =>
    cases choice with
    | fileName name =>
      refine ⟨hdirectories, ?_, hdiscovery, hduplicates⟩
      have hnone : said.fileName = none := hroom.1
      rwa [hnone] at hname
    | discovery policy =>
      refine ⟨hdirectories, hname, ?_, hduplicates⟩
      have hnone : said.discovery = none := hroom.1
      rwa [hnone] at hdiscovery
    | duplicates policy =>
      refine ⟨hdirectories, hname, hdiscovery, ?_⟩
      have hnone : said.duplicates = none := hroom.1
      rwa [hnone] at hduplicates

/-- Pieces are read as what they say together with what has been said before them. -/
theorem readAll_spell (h : progress.settle = .ok said) (hended : progress.ended = false)
    (hall : said.Completes pieces input output fileName discovery duplicates)
    (hinput : Undashed input) (houtput : Undashed output)
    (hfileName : ∀ name ∈ fileName, Undashed name) :
    progress.readAll (pieces.flatMap Piece.spell) =
      .ok (.run ⟨⟨input⟩, ⟨output⟩, fileName.getD defaultFileName, discovery.getD .default,
        duplicates.getD .default⟩) := by
  induction pieces generalizing progress said with
  | nil =>
    have hdirectories : said.directories = [input, output] := by simpa using hall.directories
    have hname := eq_of_append_nil hall.fileName
    have hdiscovery := eq_of_append_nil hall.discovery
    have hduplicates := eq_of_append_nil hall.duplicates
    simp only [List.flatMap_nil, readAll, finish, h, hdirectories, hname, hdiscovery, hduplicates]
    rfl
  | cons piece pieces ih =>
    have hroom := hall.hasRoom hinput houtput hfileName
    obtain ⟨next, hread, hnext, hopen⟩ :=
      exists_readAll_spell h hended hroom (pieces.flatMap Piece.spell)
    rw [List.flatMap_cons, hread]
    exact ih hnext hopen (hall.add hroom)

end Progress

/-- **Arranged pieces are read as what they say**, with the defaults of the library for what they do
not say. -/
theorem parse_spell {pieces : List Piece} {input output : String} {fileName : Option String}
    {discovery : Option DiscoveryPolicy} {duplicates : Option DuplicatePolicy}
    (h : Arranges pieces input output fileName discovery duplicates) (hinput : Undashed input)
    (houtput : Undashed output) (hfileName : ∀ name ∈ fileName, Undashed name) :
    parse (pieces.flatMap Piece.spell) =
      .ok (.run ⟨⟨input⟩, ⟨output⟩, fileName.getD defaultFileName, discovery.getD .default,
        duplicates.getD .default⟩) := by
  have hall : ({} : Progress).Completes pieces input output fileName discovery duplicates :=
    ⟨h.directories, h.fileName, h.discovery, h.duplicates⟩
  exact Progress.readAll_spell rfl rfl hall hinput houtput hfileName

end SchemaEnums.CommandLine
