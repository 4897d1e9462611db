import SchemaEnums.Generator
import SchemaEnums.Proofs.Loading.Files

/-!
# How files fail

All files are loaded, but the failure of the first file that fails decides.  Loading looks at nothing
but the texts of the files, so what comes behind the first failure does not matter.

* `FailsWith`: what is wrong with a file, said without the loading.
* `file_eq_error_iff`, `files_eq_error_iff`: **the loading fails with what is wrong with the first
  file that fails.**
* `files_eq_error_of_same_texts`: **two file systems that agree up to this file give the same
  failure.**
* `FailsWith.mentions_path`: a failure is reported with the path of its file.
-/

namespace SchemaEnums

open Schema Extraction

/-- What is wrong with the file at a path: it cannot be read as text, the text is no JSON, or there is
a first schema in the document that is malformed. -/
inductive FailsWith (fs : FileSystem) (path : Path) : FileError → Prop
  | unreadable {fault : ReadFault} (hread : fs.readText path = .error fault) :
      FailsWith fs path (.load (.unreadable path fault))
  | notJson {text : String} {error : Json.SyntaxError} (hread : fs.readText path = .ok text)
      (hparse : Json.parse text = .error error) : FailsWith fs path (.load (.notJson path error))
  | malformed {document node : Json} {way : List Step} {defect : Defect}
      (hdocument : HoldsDocument fs path document) (hreaches : Reaches document way node)
      (hdefect : classify node = .error defect)
      (hfirst : ∀ earlier other, Reaches document earlier other →
        List.Lex Step.Before earlier way → ¬ Malformed other) :
      FailsWith fs path (.invalidSchema path ⟨pointerAt .root way, defect⟩)

namespace Loading

variable {fs later : FileSystem} {path : Path} {paths before : List Path} {document : Json}
  {error : FileError}

/-! ### One file -/

theorem loadJson_eq_error_iff {error : LoadError} :
    fs.loadJson path = .error error ↔
      (∃ fault, fs.readText path = .error fault ∧ error = .unreadable path fault) ∨
        ∃ text syntaxError, fs.readText path = .ok text ∧ Json.parse text = .error syntaxError ∧
          error = .notJson path syntaxError := by
  unfold FileSystem.loadJson
  cases hread : fs.readText path with
  | error fault => simp [eq_comm]
  | ok text =>
    cases hparse : Json.parse text with
    | error syntaxError => simp [hparse, Except.mapError, eq_comm]
    | ok document => simp [hparse, Except.mapError]

theorem ofDocument_eq_error_iff :
    (ofDocument path document).result = .error error ↔
      ∃ found, (Extraction.ofDocument document path.schemaName).error = some found ∧
        error = .invalidSchema path found := by
  simp only [ofDocument, Extraction.declarations]
  cases (Extraction.ofDocument document path.schemaName).error with
  | none => simp
  | some found => simp [eq_comm]

/-- **The loading of a file fails with what is wrong with it.** -/
theorem file_eq_error_iff : (file fs path).result = .error error ↔ FailsWith fs path error := by
  constructor
  · intro h
    unfold file at h
    split at h
    · rename_i loadError hload
      cases h
      rcases loadJson_eq_error_iff.mp hload with ⟨fault, hread, rfl⟩ |
        ⟨text, syntaxError, hread, hparse, rfl⟩
      · exact .unreadable hread
      · exact .notJson hread hparse
    · rename_i document hload
      have hdocument := loadJson_eq_ok_iff.mp hload
      obtain ⟨found, hfound, rfl⟩ := ofDocument_eq_error_iff.mp h
      obtain ⟨way, node, defect, hreaches, hdefect, rfl, hfirst⟩ :=
        ofDocument_error_eq_some_iff.mp hfound
      exact .malformed hdocument hreaches hdefect hfirst
  · intro h
    cases h with
    | unreadable hread =>
      rw [file, loadJson_eq_error_iff.mpr (Or.inl ⟨_, hread, rfl⟩)]
    | notJson hread hparse =>
      rw [file, loadJson_eq_error_iff.mpr (Or.inr ⟨_, _, hread, hparse, rfl⟩)]
    | malformed hdocument hreaches hdefect hfirst =>
      rw [file, loadJson_eq_ok_iff.mpr hdocument]
      refine ofDocument_eq_error_iff.mpr ⟨_, ?_, rfl⟩
      exact ofDocument_error_eq_some_iff.mpr ⟨_, _, _, hreaches, hdefect, rfl, hfirst⟩

/-! ### The first failure -/

/-- **The loading of files fails with what is wrong with the first one that fails.** -/
theorem files_eq_error_iff :
    (files fs paths).result = .error error ↔
      ∃ before path after, paths = before ++ path :: after ∧ (∀ file ∈ before, Good fs file) ∧
        FailsWith fs path error := by
  simp only [result_files, inRow_eq_error_iff, good_iff, file_eq_error_iff]

theorem exists_first_failure (h : ∃ path ∈ paths, ¬ Good fs path) :
    ∃ before path after error, paths = before ++ path :: after ∧ (∀ file ∈ before, Good fs file) ∧
      FailsWith fs path error := by
  cases hresult : (files fs paths).result with
  | error error =>
    obtain ⟨before, path, after, hsplit, hbefore, hfails⟩ := files_eq_error_iff.mp hresult
    exact ⟨before, path, after, error, hsplit, hbefore, hfails⟩
  | ok declarations =>
    have hgood := exists_ok_iff.mp ⟨declarations, hresult⟩
    obtain ⟨path, hmem, hbad⟩ := h
    exact absurd (hgood path hmem) hbad

/-! ### What the loading looks at -/

theorem file_congr (h : later.readText path = fs.readText path) :
    file later path = file fs path := by
  have hload : later.loadJson path = fs.loadJson path := by
    rw [FileSystem.loadJson, h, FileSystem.loadJson]
  rw [file, hload, file]

theorem files_congr (h : ∀ path ∈ paths, later.readText path = fs.readText path) :
    files later paths = files fs paths := by
  induction paths with
  | nil => rfl
  | cons head rest ih =>
    obtain ⟨hhead, hrest⟩ := List.forall_mem_cons.mp h
    show (file later head).append (files later rest) = (file fs head).append (files fs rest)
    rw [file_congr hhead, ih hrest]

/-- **What comes behind the first failure does not matter.** -/
theorem files_eq_error_of_same_texts (hbefore : ∀ file ∈ before, Good fs file)
    (hfails : FailsWith fs path error)
    (hsame : ∀ file ∈ before ++ [path], later.readText file = fs.readText file)
    (behind : List Path) : (files later (before ++ path :: behind)).result = .error error := by
  refine files_eq_error_iff.mpr ⟨before, path, behind, rfl, ?_, ?_⟩
  · intro earlier hmem
    have hresult := good_iff.mp (hbefore earlier hmem)
    rw [good_iff, file_congr (hsame earlier (List.mem_append_left _ hmem))]
    exact hresult
  · have hresult := file_eq_error_iff.mpr hfails
    rw [← file_eq_error_iff, file_congr (hsame path (by simp))]
    exact hresult

end Loading

/-! ### What is reported of a failure -/

theorem Report.outermost_prefix_message (report : Report) :
    report.outermost.toList <+: report.message.toList := by
  rw [message, String.toList_intercalate, List.map_cons]
  cases report.causes with
  | nil => simp [List.intercalate]
  | cons cause causes => simp [List.intercalate]

theorem Report.outermost_prefix_paragraph (report : Report) :
    report.outermost.toList <+: report.paragraph.toList := by
  unfold paragraph
  split
  · exact List.prefix_rfl
  · simp [String.toList_append]

/-- **A failure is reported with the path of its file**, in its outermost message, in the line of all
causes and in the paragraph of them. -/
theorem FailsWith.mentions_path {fs : FileSystem} {path : Path} {error : FileError}
    (h : FailsWith fs path error) :
    ∀ shown ∈ [error.report.outermost, error.report.message, error.report.paragraph],
      path.text.toList <:+: shown.toList := by
  have hinfix (front behind : String) :
      path.text.toList <:+: (front ++ path.text ++ behind).toList := by
    rw [String.toList_append, String.toList_append]
    exact List.infix_append _ _ _
  have houtermost : path.text.toList <:+: error.report.outermost.toList := by
    cases h with
    | @unreadable fault _ =>
      cases fault with
      | unopened os => exact hinfix _ _
      | directory => exact hinfix _ _
      | notUtf8 => exact hinfix _ _
    | notJson _ _ => exact hinfix _ _
    | malformed _ _ _ _ => exact hinfix _ _
  intro shown hshown
  simp only [List.mem_cons, List.not_mem_nil, or_false] at hshown
  rcases hshown with rfl | rfl | rfl
  · exact houtermost
  · exact houtermost.trans error.report.outermost_prefix_message.isInfix
  · exact houtermost.trans error.report.outermost_prefix_paragraph.isInfix

end SchemaEnums
