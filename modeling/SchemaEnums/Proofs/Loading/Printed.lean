import SchemaEnums.Proofs.Json.RoundTrip
import SchemaEnums.Proofs.Loading.Files

/-!
# Documents through files

A value that is written to a file comes back from it as it was, so what a file declares is what the
value declares.

* `result_ofDocument`: the loading of a document adds the path to its error, and nothing else.
* `file_of_print`: **extraction from a file that holds the text of a value is extraction from the
  value.**
-/

namespace SchemaEnums.Loading

variable {fs : FileSystem} {path : Path}

theorem result_ofDocument (path : Path) (document : Json) :
    (ofDocument path document).result =
      ((Extraction.ofDocument document path.schemaName).declarations path).mapError
        (.invalidSchema path) := by
  simp only [ofDocument]
  cases (Extraction.ofDocument document path.schemaName).declarations path <;> rfl

/-- **Extraction from a file that holds the text of a value is extraction from the value**, if the
value holds no float and is nested at most 127 levels deep. -/
theorem file_of_print {value : Json} (hfloat : value.FloatFree) (hkeys : value.DistinctKeys)
    (hdepth : value.depth ≤ 127) (hread : fs.readText path = .ok value.print) :
    fs.loadJson path = .ok value ∧
      (file fs path).result =
        ((Extraction.ofDocument value path.schemaName).declarations path).mapError
          (.invalidSchema path) := by
  have hload : fs.loadJson path = .ok value :=
    loadJson_eq_ok_iff.mpr ⟨_, hread, Json.parse_print hfloat hkeys hdepth⟩
  refine ⟨hload, ?_⟩
  rw [file, hload]
  exact result_ofDocument path value

/-! ### A value whose text needs escapes -/

/-- A schema with characters that are escaped in its text, and a negative integer. -/
def quoted : Json :=
  .object [("type", .string "object"),
    ("properties", .object [("\"~\"\n", .object [("const", .number (.integer ⟨-7, by decide⟩)),
      ("enum", .array [.string "é\\", .string "\t"])])])]

/-- The file `q.json` with a given text. -/
def holding (text : String) : FileSystem where
  entries := [(⟨[113, 46, 106, 115, 111, 110], by decide⟩, .file text.toUTF8)]
  ordered := ⟨trivial, by simp, trivial⟩
  workingDir := []

theorem readText_holding (text : String) : (holding text).readText ⟨"q.json"⟩ = .ok text := by
  have hstat : (holding text).stat ⟨"q.json"⟩ = .ok (.file text.toUTF8) := rfl
  have htext : String.fromUTF8? text.toUTF8 = some text := dif_pos text.isValidUTF8
  simp only [FileSystem.readText, hstat, htext]

theorem file_of_print_quoted :
    quoted.FloatFree ∧ quoted.DistinctKeys ∧ quoted.depth ≤ 127 ∧
      (holding quoted.print).readText ⟨"q.json"⟩ = .ok quoted.print ∧
      (holding quoted.print).loadJson ⟨"q.json"⟩ = .ok quoted ∧
      (file (holding quoted.print) ⟨"q.json"⟩).result =
        .ok [⟨"\"~\"\n", ["é\\", "\t"], ⟨"q.json"⟩⟩] := by
  have hfloat : quoted.FloatFree := by simp [quoted]
  have hkeys : quoted.DistinctKeys := by simp [quoted]
  have hdepth : quoted.depth ≤ 127 := by decide
  obtain ⟨hload, hresult⟩ := file_of_print hfloat hkeys hdepth (readText_holding quoted.print)
  refine ⟨hfloat, hkeys, hdepth, readText_holding quoted.print, hload, ?_⟩
  rw [hresult]
  with_unfolding_all rfl

end SchemaEnums.Loading
