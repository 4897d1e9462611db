import Mathlib.Data.List.Basic
import SchemaEnums.Pointer

/-!
# Pointers read back

A pointer is read by RFC 6901: behind the `#` the text is split at the slashes, and in each token
first `~1` is replaced by a slash and then `~0` by a tilde.  Percent signs mean nothing.

* `unescape_escape`: a token that has been escaped is read back.
* `tokens?`: the tokens of a pointer.
* `tokens?_property`: **the pointer to a property has two tokens more than its parent**, the word
  `properties` and the name, whatever characters the name has.
* `tokens_path`: **a pointer is read back as the names that it was made of**, so different names
  have different pointers.
-/

namespace SchemaEnums.Pointer

/-! ### One token -/

/-- Replaces each tilde with `digit` behind it by the character `c`. -/
def replaceTilde (digit c : Char) : List Char → List Char
  | [] => []
  | '~' :: d :: rest =>
    if d = digit then c :: replaceTilde digit c rest else '~' :: replaceTilde digit c (d :: rest)
  | d :: rest => d :: replaceTilde digit c rest

/-- The characters that a token stands for. -/
def unescape (token : List Char) : List Char :=
  replaceTilde '0' '~' (replaceTilde '1' '/' token)

/-- How a token whose slashes have been read spells one character. -/
def escapeTilde (c : Char) : List Char :=
  if c = '~' then ['~', '0'] else [c]

/-- How a token whose tildes have been replaced spells one character. -/
def escapeSlash (c : Char) : List Char :=
  if c = '/' then ['~', '1'] else [c]

theorem replaceTilde_pair {digit d : Char} (c : Char) (rest : List Char) :
    replaceTilde digit c ('~' :: d :: rest) =
      if d = digit then c :: replaceTilde digit c rest
      else '~' :: replaceTilde digit c (d :: rest) := by
  rw [replaceTilde]

theorem replaceTilde_cons {digit d : Char} (c : Char) (h : d ≠ '~') (rest : List Char) :
    replaceTilde digit c (d :: rest) = d :: replaceTilde digit c rest := by
  rw [replaceTilde]
  rintro _ _ rfl
  exact absurd rfl h

/-- Where slashes are read first, the tildes stay escaped. -/
theorem replaceTilde_flatMap_escape (name : List Char) :
    replaceTilde '1' '/' (name.flatMap escape) = name.flatMap escapeTilde := by
  induction name with
  | nil => rfl
  | cons c rest ih =>
    rw [List.flatMap_cons, List.flatMap_cons, ← ih]
    by_cases htilde : c = '~'
    · subst htilde
      have hzero : '0' ≠ '~' := by decide
      show replaceTilde '1' '/' ('~' :: '0' :: rest.flatMap escape) = _
      rw [replaceTilde_pair, if_neg (by decide), replaceTilde_cons _ hzero]
      rfl
    by_cases hslash : c = '/'
    · subst hslash
      show replaceTilde '1' '/' ('~' :: '1' :: rest.flatMap escape) = _
      rw [replaceTilde_pair, if_pos rfl]
      rfl
    · rw [escape, if_neg htilde, if_neg hslash, escapeTilde, if_neg htilde]
      exact replaceTilde_cons _ htilde _

theorem replaceTilde_flatMap_escapeTilde (name : List Char) :
    replaceTilde '0' '~' (name.flatMap escapeTilde) = name := by
  induction name with
  | nil => rfl
  | cons c rest ih =>
    rw [List.flatMap_cons]
    by_cases htilde : c = '~'
    · subst htilde
      show replaceTilde '0' '~' ('~' :: '0' :: rest.flatMap escapeTilde) = _
      rw [replaceTilde_pair, if_pos rfl, ih]
    · rw [escapeTilde, if_neg htilde, List.singleton_append, replaceTilde_cons _ htilde, ih]

/-- **A token that has been escaped is read back.** -/
theorem unescape_escape (name : List Char) : unescape (name.flatMap escape) = name := by
  rw [unescape, replaceTilde_flatMap_escape, replaceTilde_flatMap_escapeTilde]

/-- Escaping is two replacements in a row, of the tildes and then of the slashes: the other way round
the tilde that stands for a slash would be replaced as well. -/
theorem flatMap_escapeTilde_escapeSlash (name : List Char) :
    (name.flatMap escapeTilde).flatMap escapeSlash = name.flatMap escape := by
  rw [List.flatMap_assoc]
  apply List.flatMap_congr
  intro c _
  by_cases htilde : c = '~'
  · subst htilde
    decide
  · rw [escapeTilde, if_neg htilde, escape, if_neg htilde, List.flatMap_singleton, escapeSlash]

theorem slash_notMem_escape (name : List Char) : '/' ∉ name.flatMap escape := by
  intro hmem
  obtain ⟨c, -, hc⟩ := List.mem_flatMap.mp hmem
  unfold escape at hc
  split at hc
  · revert hc
    decide
  · split at hc
    · revert hc
      decide
    · rename_i hslash
      exact hslash (List.mem_singleton.mp hc).symm

/-! ### All tokens -/

/-- The text of a token. -/
def tokenText (token : List Char) : String :=
  .ofList (unescape token)

/-- The tokens of a pointer: behind the `#` each of them has a slash in front. -/
def tokens? (pointer : Pointer) : Option (List String) :=
  match pointer.text.toList with
  | '#' :: text =>
    match text.splitOn '/' with
    | [] :: tokens => some (tokens.map tokenText)
    | _ => none
  | _ => none

theorem tokens?_root : root.tokens? = some [] := by
  decide

theorem tokens?_eq_some_iff {pointer : Pointer} {tokens : List String} :
    pointer.tokens? = some tokens ↔
      ∃ text spelled, pointer.text.toList = '#' :: text ∧ text.splitOn '/' = [] :: spelled ∧
        tokens = spelled.map tokenText := by
  unfold tokens?
  split
  · rename_i text htext
    rw [htext]
    split
    · rename_i spelled hspelled
      simp [hspelled, eq_comm]
    · rename_i hnone
      refine iff_of_false nofun ?_
      rintro ⟨_, spelled, heq, hspelled, -⟩
      obtain rfl := (List.cons.inj heq).2
      exact hnone spelled hspelled
  · rename_i hnone
    refine iff_of_false nofun ?_
    rintro ⟨text, -, htext, -⟩
    exact hnone text htext

theorem toList_property (parent : Pointer) (name : String) :
    (parent.property name).text.toList =
      parent.text.toList ++ '/' :: ("properties".toList ++ '/' :: name.toList.flatMap escape) := by
  rw [property, String.toList_append, String.toList_append, String.toList_ofList]
  simp

/-- **The pointer to a property has two tokens more than its parent**: the word `properties`, and the
name. -/
theorem tokens?_property {parent : Pointer} {tokens : List String}
    (h : parent.tokens? = some tokens) (name : String) :
    (parent.property name).tokens? = some (tokens ++ ["properties", name]) := by
  obtain ⟨text, spelled, htext, hspelled, rfl⟩ := tokens?_eq_some_iff.mp h
  have hword : '/' ∉ "properties".toList := by decide
  have hproperties : tokenText "properties".toList = "properties" := by decide
  have hname : tokenText (name.toList.flatMap escape) = name := by
    rw [tokenText, unescape_escape, String.ofList_toList]
  refine tokens?_eq_some_iff.mpr
    ⟨text ++ '/' :: ("properties".toList ++ '/' :: name.toList.flatMap escape),
      spelled ++ ["properties".toList, name.toList.flatMap escape], ?_, ?_, ?_⟩
  · rw [toList_property, htext]
    rfl
  · rw [List.splitOn_append_cons_self, List.splitOn_append_cons_self, hspelled,
      List.splitOn_eq_singleton hword, List.splitOn_eq_singleton (slash_notMem_escape _)]
    rfl
  · rw [List.map_append, List.map_cons, List.map_cons, List.map_nil, hproperties, hname]

/-! ### The names on the way from the root -/

/-- The tokens that stand for names of properties. -/
def pathTokens (names : List String) : List String :=
  names.flatMap fun name => ["properties", name]

/-- The pointer through properties of the given names. -/
def path (names : List String) : Pointer :=
  names.foldl property root

theorem tokens?_foldl_property {parent : Pointer} {tokens : List String}
    (h : parent.tokens? = some tokens) (names : List String) :
    (names.foldl property parent).tokens? = some (tokens ++ pathTokens names) := by
  induction names generalizing parent tokens with
  | nil =>
    rw [pathTokens, List.flatMap_nil, List.append_nil]
    exact h
  | cons name rest ih =>
    have hrest := ih (tokens?_property h name)
    rw [List.append_assoc] at hrest
    exact hrest

theorem pathTokens_injective : Function.Injective pathTokens := by
  intro names others h
  induction names generalizing others with
  | nil =>
    cases others with
    | nil => rfl
    | cons other behind => cases h
  | cons name rest ih =>
    cases others with
    | nil => cases h
    | cons other behind =>
      obtain ⟨-, htail⟩ := List.cons.inj h
      obtain ⟨hname, hrest⟩ := List.cons.inj htail
      rw [hname, ih hrest]

/-- One more name is written behind the others: first its tildes are replaced, then its slashes. -/
theorem toList_path_concat (names : List String) (name : String) :
    (path (names ++ [name])).text.toList =
      (path names).text.toList ++ "/properties/".toList ++
        (name.toList.flatMap escapeTilde).flatMap escapeSlash := by
  have hpath : path (names ++ [name]) = (path names).property name := List.foldl_concat ..
  have hname : (String.ofList (name.toList.flatMap escape)).toList = name.toList.flatMap escape :=
    String.toList_ofList
  rw [hpath, property, String.toList_append, String.toList_append, hname,
    flatMap_escapeTilde_escapeSlash]

/-- **A pointer is read back as the names that it was made of**, whatever characters they have: its
tokens are the word `properties` and a name in turn.  So different names have different pointers. -/
theorem tokens_path (names : List String) :
    (∀ name, (path (names ++ [name])).text.toList =
        (path names).text.toList ++ "/properties/".toList ++
          (name.toList.flatMap escapeTilde).flatMap escapeSlash) ∧
      (path names).tokens? = some (names.flatMap fun name => ["properties", name]) ∧
      ∀ others : List String, path others = path names ↔ others = names := by
  have htokens (names : List String) : (path names).tokens? = some (pathTokens names) :=
    tokens?_foldl_property tokens?_root names
  refine ⟨toList_path_concat names, htokens names, fun others => ⟨?_, congrArg path⟩⟩
  intro hsame
  have hread := congrArg tokens? hsame
  rw [htokens, htokens, Option.some.injEq] at hread
  exact pathTokens_injective hread

/-- Names that are empty, that look like tokens or like escapes, and that hold separators. -/
example : (path ["", "a/~1", "properties", "~01#"]).tokens? =
    some ["properties", "", "properties", "a/~1", "properties", "properties", "properties", "~01#"] := by
  decide

end SchemaEnums.Pointer
