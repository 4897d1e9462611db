import SchemaEnums.Loading
import SchemaEnums.Proofs.Extraction.Visits
import SchemaEnums.Proofs.InRow

/-!
# What files declare

A file is good if it holds a document without a malformed schema that can be reached.  The
declarations of good files are those of the enums that can be reached in them, file by file.

* `HoldsDocument`, `Good`: what is to be expected of a file.
* `DeclaredAt`: what a list of files declares at a site, which is a file and a way in its document.
* `Loading.result_files`: the loading of files is that of each of them, in a row.
* `Loading.exists_ok_iff`: **the loading of files fails exactly if one of them is not good.**
* `Loading.enumerates_files`: **otherwise it gives what is declared**, in the order of the sites.
-/

namespace SchemaEnums

open Schema Extraction

/-- The file at a path holds a JSON document. -/
def HoldsDocument (fs : FileSystem) (path : Path) (document : Json) : Prop :=
  ∃ text, fs.readText path = .ok text ∧ Json.parse text = .ok document

/-- The file at a path holds a JSON document in which no malformed schema can be reached. -/
def Good (fs : FileSystem) (path : Path) : Prop :=
  ∃ document, HoldsDocument fs path document ∧
    ∀ way node, Reaches document way node → ¬ Malformed node

/-- The enum at the end of a way in the document of a file, as a declaration. -/
def DeclaredIn (fs : FileSystem) (path : Path) (way : List Step) (declaration : Declaration) :
    Prop :=
  ∃ document node members, HoldsDocument fs path document ∧ Reaches document way node ∧
    IsEnum node members ∧ declaration = ⟨nameAt path.schemaName way, members, path⟩

/-- A place in a list of files: the position of the file and the way in its document. -/
abbrev Site := Nat × List Step

/-- The order of sites: that of the files, and in a file that of the document. -/
def Site.Before : Site → Site → Prop :=
  Prod.Lex Nat.lt (List.Lex Step.Before)

theorem Site.Before.asymm {site other : Site} (h : Site.Before site other) :
    ¬ Site.Before other site := by
  intro hback
  rcases Prod.lex_def.mp h with hlt | ⟨heq, hway⟩
  · rcases Prod.lex_def.mp hback with hlt' | ⟨heq', -⟩
    · exact Nat.lt_asymm hlt hlt'
    · exact Nat.lt_irrefl _ (heq' ▸ hlt)
  · rcases Prod.lex_def.mp hback with hlt' | ⟨-, hway'⟩
    · exact Nat.lt_irrefl _ (heq ▸ hlt')
    · exact lex_step_asymm hway hway'

/-- The enum at a site in a list of files, as a declaration. -/
def DeclaredAt (fs : FileSystem) (files : List Path) (site : Site) (declaration : Declaration) :
    Prop :=
  ∃ path, files[site.1]? = some path ∧ DeclaredIn fs path site.2 declaration

namespace Loading

variable {fs : FileSystem} {path : Path} {paths : List Path} {document : Json}
  {declarations : List Declaration}

/-! ### One file -/

theorem loadJson_eq_ok_iff : fs.loadJson path = .ok document ↔ HoldsDocument fs path document := by
  unfold FileSystem.loadJson HoldsDocument
  cases fs.readText path with
  | error fault => simp
  | ok text =>
    simp only [Except.ok.injEq, exists_eq_left']
    cases Json.parse text <;> simp [Except.mapError]

theorem file_ok_iff :
    (file fs path).result = .ok declarations ↔
      ∃ document, HoldsDocument fs path document ∧
        (Extraction.ofDocument document path.schemaName).declarations path = .ok declarations := by
  simp only [← loadJson_eq_ok_iff]
  unfold file
  cases fs.loadJson path with
  | error error => simp
  | ok document =>
    simp only [Except.ok.injEq, exists_eq_left', Loading.ofDocument]
    cases (Extraction.ofDocument document path.schemaName).declarations path <;> simp

theorem good_iff : Good fs path ↔ ∃ declarations, (file fs path).result = .ok declarations := by
  simp only [file_ok_iff, Good]
  constructor
  · rintro ⟨document, hdocument, hsound⟩
    obtain ⟨declarations, hdeclarations⟩ := exists_declarations_iff.mpr hsound
    exact ⟨declarations, document, hdocument, hdeclarations⟩
  · rintro ⟨declarations, document, hdocument, hdeclarations⟩
    exact ⟨document, hdocument, exists_declarations_iff.mp ⟨declarations, hdeclarations⟩⟩

theorem HoldsDocument.unique {other : Json} (h : HoldsDocument fs path document)
    (hother : HoldsDocument fs path other) : document = other :=
  Except.ok.inj ((loadJson_eq_ok_iff.mpr h).symm.trans (loadJson_eq_ok_iff.mpr hother))

theorem enumerates_file (h : (file fs path).result = .ok declarations) :
    Enumerates (List.Lex Step.Before) (DeclaredIn fs path) declarations := by
  obtain ⟨document, hdocument, hdeclarations⟩ := file_ok_iff.mp h
  refine (enumerates_declarations hdeclarations).congr ?_
  intro way declaration
  constructor
  · rintro ⟨node, members, hreaches, henum, hdeclaration⟩
    exact ⟨document, node, members, hdocument, hreaches, henum, hdeclaration⟩
  · rintro ⟨other, node, members, hother, hreaches, henum, hdeclaration⟩
    cases HoldsDocument.unique hdocument hother
    exact ⟨node, members, hreaches, henum, hdeclaration⟩

/-! ### Several files -/

theorem result_files (fs : FileSystem) (paths : List Path) :
    (files fs paths).result = inRow (fun path => (file fs path).result) paths := by
  induction paths with
  | nil => rfl
  | cons path rest ih =>
    have hcons : files fs (path :: rest) = (file fs path).append (files fs rest) := rfl
    rw [hcons, append, inRow, ih]
    cases (file fs path).result with
    | error error => rfl
    | ok part => cases inRow (fun path => (file fs path).result) rest <;> rfl

theorem files_ok_iff :
    (files fs paths).result = .ok declarations ↔
      ∃ parts, List.Forall₂ (fun path part => (file fs path).result = .ok part) paths parts ∧
        declarations = parts.flatten := by
  rw [result_files]
  exact inRow_eq_ok_iff

/-- **The loading of files fails exactly if one of them is not good.** -/
theorem exists_ok_iff :
    (∃ declarations, (files fs paths).result = .ok declarations) ↔
      ∀ path ∈ paths, Good fs path := by
  simp only [result_files, exists_inRow_iff, good_iff]

/-- **The loading of good files gives what they declare**, in the order of the sites. -/
theorem enumerates_files (h : (files fs paths).result = .ok declarations) :
    Enumerates Site.Before (DeclaredAt fs paths) declarations := by
  obtain ⟨parts, hparts, rfl⟩ := files_ok_iff.mp h
  exact Enumerates.flatten (hparts.imp fun _ _ hpart => enumerates_file hpart)

end Loading

end SchemaEnums
