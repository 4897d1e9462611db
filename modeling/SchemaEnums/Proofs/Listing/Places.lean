import SchemaEnums.Proofs.Enumeration
import SchemaEnums.Proofs.Path.Bytes
import SchemaEnums.FileSystem.Resolution
import SchemaEnums.Text.Lossy

/-!
# Places below a directory and their paths

A place below a directory is the list of names that lead to it.  The walk sees its path instead,
which is the path of the directory with the names behind it, and asks the path what the place's name
is.

* `pathTo`: the path of a place.
* `pathTo_injective`: **different places have different paths.**
* `endsLikeSchema_iff`: **the path ends like that of a schema file exactly when the name does.**
-/

namespace SchemaEnums

namespace Location

/-- The path of a place below the directory at a path. -/
def pathTo (dir : List UInt8) (place : Location) : List UInt8 :=
  place.foldl (fun path name => joinWith 47 path name.val) dir

/-- The order of places: name by name, the names byte by byte. -/
def Before : Location → Location → Prop :=
  List.Lex fun name other => name.val < other.val

variable {dir : List UInt8} {place other : Location} {name : Name}

@[simp] theorem pathTo_nil (dir : List UInt8) : pathTo dir [] = dir := rfl

@[simp] theorem pathTo_cons (dir : List UInt8) (name : Name) (rest : Location) :
    pathTo dir (name :: rest) = pathTo (joinWith 47 dir name.val) rest := rfl

theorem pathTo_concat (dir : List UInt8) (place : Location) (name : Name) :
    pathTo dir (place ++ [name]) = joinWith 47 (pathTo dir place) name.val := by
  simp [pathTo]

theorem not_before_self (place : Location) : ¬ Before place place :=
  lex_irrefl (fun name => List.lt_irrefl name.val) place

theorem not_before_of_before {place other : Location} (h : Before place other) :
    ¬ Before other place :=
  List.lex_asymm (fun {_ _} hname => List.lt_asymm hname) h

end Location

/-! ### What stands behind the last slash -/

theorem joinWith_eq_append_slash {dir : List UInt8} (h : dir ≠ []) :
    ∃ front, ∀ name, joinWith 47 dir name = front ++ 47 :: name := by
  by_cases hlast : dir.getLast? = some 47
  · obtain ⟨front, rfl⟩ := List.getLast?_eq_some_iff.mp hlast
    refine ⟨front, ?_⟩
    intro name
    rw [joinWith_of_complete (Or.inr hlast), List.append_assoc, List.singleton_append]
  · exact ⟨dir, joinWith_of_open (not_or.mpr ⟨h, hlast⟩)⟩

theorem joinWith_ne_nil {dir : List UInt8} (h : dir ≠ []) (name : List UInt8) :
    joinWith 47 dir name ≠ [] := by
  obtain ⟨front, hfront⟩ := joinWith_eq_append_slash h
  simp [hfront]

/-- An ending without a slash ends a path exactly when it ends what stands behind the slash. -/
theorem suffix_append_slash_iff {ending front name : List UInt8} (h : 47 ∉ ending) :
    ending <:+ front ++ 47 :: name ↔ ending <:+ name := by
  constructor
  · intro hsuffix
    rcases List.suffix_or_suffix_of_suffix hsuffix (List.suffix_append front (47 :: name)) with
      hshort | hlong
    · rcases List.suffix_cons_iff.mp hshort with rfl | hname
      · exact absurd List.mem_cons_self h
      · exact hname
    · exact absurd (hlong.subset List.mem_cons_self) h
  · intro hname
    exact hname.trans ((List.suffix_cons 47 name).trans (List.suffix_append front _))

namespace Location

variable {dir : List UInt8} {place other : Location} {name : Name}

theorem pathTo_ne_nil (h : dir ≠ []) (place : Location) : pathTo dir place ≠ [] := by
  induction place generalizing dir with
  | nil => exact h
  | cons name rest ih => exact ih (joinWith_ne_nil h name.val)

theorem pathTo_concat_open (h : dir ≠ []) (place : Location) (name : Name) :
    (pathTo dir (place ++ [name])).getLast? ≠ some 47 := by
  obtain ⟨front, hfront⟩ := joinWith_eq_append_slash (pathTo_ne_nil h place)
  rw [pathTo_concat, hfront, List.getLast?_append_cons, List.getLast?_cons]
  intro hlast
  have hname := name.property
  cases hend : name.val.getLast? with
  | none => exact hname.1 (by simp [List.getLast?_eq_none_iff.mp hend])
  | some last =>
    rw [hend] at hlast
    cases hlast
    exact hname.2.2.1 (List.mem_of_getLast? hend)

theorem splitOn_pathTo (h : dir ≠ []) :
    ∃ front, ∀ place, place ≠ [] →
      (pathTo dir place).splitOn 47 = front ++ place.map Subtype.val := by
  obtain ⟨front, hfront⟩ := joinWith_eq_append_slash h
  refine ⟨front.splitOn 47, ?_⟩
  intro place hplace
  induction place using List.reverseRecOn with
  | nil => exact absurd rfl hplace
  | append_singleton place name ih =>
    have hsingle := List.splitOn_eq_singleton name.property.2.2.1
    rcases List.eq_nil_or_concat' place with rfl | ⟨init, last, rfl⟩
    · rw [List.nil_append, pathTo_cons, pathTo_nil, hfront, List.splitOn_append_cons_self, hsingle]
      rfl
    · -- behind the first name no path ends with a slash, so each join adds exactly one
      have hopen := not_or.mpr ⟨pathTo_ne_nil h (init ++ [last]), pathTo_concat_open h init last⟩
      rw [pathTo_concat, joinWith_of_open hopen, List.splitOn_append_cons_self, hsingle,
        ih (by simp)]
      simp

/-- **Different places have different paths.** -/
theorem pathTo_injective (h : dir ≠ []) (hplace : place ≠ []) (hother : other ≠ [])
    (heq : pathTo dir place = pathTo dir other) : place = other := by
  obtain ⟨front, hfront⟩ := splitOn_pathTo h
  have hsegments := (hfront place hplace).symm.trans (heq ▸ hfront other hother)
  exact Subtype.val_injective.list_map (List.append_cancel_left hsegments)

end Location

/-! ### Schema files -/

/-- The bytes that the name of a schema file ends with. -/
def schemaBytes : List UInt8 :=
  Utf8.encode schemaEnding.toList

/-- **The path ends like that of a schema file exactly when the name does.** -/
theorem Path.endsLikeSchema_iff {path : Path} {dir : List UInt8} {place : Location} {name : Name}
    (h : dir ≠ []) (hlast : place.getLast? = some name)
    (hpath : path.bytes = Location.pathTo dir place) :
    Path.endsLikeSchema path.text.toList ↔ schemaBytes <:+ name.val := by
  obtain ⟨init, rfl⟩ := List.getLast?_eq_some_iff.mp hlast
  obtain ⟨front, hfront⟩ := joinWith_eq_append_slash (Location.pathTo_ne_nil h init)
  rw [Path.endsLikeSchema, List.isSuffixOf_iff_suffix, ← Utf8.suffix_iff (by decide),
    ← bytes_eq path, hpath, Location.pathTo_concat, hfront]
  exact suffix_append_slash_iff (by decide)

theorem Path.ofBytes?_eq_some_iff {bytes : List UInt8} {path : Path} :
    Path.ofBytes? bytes = some path ↔ path.bytes = bytes := by
  rw [ofBytes?, Option.map_eq_some_iff]
  constructor
  · rintro ⟨text, htext, rfl⟩
    unfold String.fromUTF8? at htext
    split at htext
    · cases htext
      rfl
    · cases htext
  · rintro rfl
    refine ⟨path.text, ?_, rfl⟩
    have hbytes : (⟨path.bytes.toArray⟩ : ByteArray) = path.text.toByteArray := by
      simp [bytes]
    have hvalid := path.text.isValidUTF8
    rw [hbytes, String.fromUTF8?, dif_pos hvalid]
    rfl

end SchemaEnums
