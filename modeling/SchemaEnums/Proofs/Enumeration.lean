import Mathlib.Data.List.Basic
import Mathlib.Data.List.Lex

/-!
# Lists of what stands where

A walk lists what it finds.  What such a list has to be is said without the walk: there are places,
an order of them, and something that may hold at a place.

* `Enumerates before Holds items`: **`items` is what holds, once for each place, in the order of the
  places**; nothing is left out, repeated or moved.
* `Enumerates.filterMap`: what is picked from ascending visits is an enumeration.
* `Enumerates.flatten`: enumerations in a row are one.
* `Enumerates.unique`: what holds and the order of the places say what the enumeration is.
* `findSome?_eq_some_iff_first`: searching ascending visits finds what is at the first place.
* `mem_takeWhile_iff_of_ascending`: going through them stops at the first place where something is
  wrong.
* `Ascending.cons_node`, `Ascending.below_append`: going through a tree from the front to the back,
  each node before what is below it, is ascending in the lexicographic order of the places.
-/

namespace SchemaEnums

variable {π α β γ : Type} {before : π → π → Prop} {Holds : π → γ → Prop} {items : List γ}

/-- The items are what holds at places: one for each place at which something holds, in the order of
the places. -/
def Enumerates (before : π → π → Prop) (Holds : π → γ → Prop) (items : List γ) : Prop :=
  ∃ listed : List (π × γ), listed.Pairwise (fun a b => before a.1 b.1) ∧
    (∀ place item, (place, item) ∈ listed ↔ Holds place item) ∧ items = listed.map Prod.snd

namespace Enumerates

theorem mem_iff (h : Enumerates before Holds items) {item : γ} :
    item ∈ items ↔ ∃ place, Holds place item := by
  obtain ⟨listed, -, hmem, rfl⟩ := h
  simp [← hmem]

theorem eq_nil_iff (h : Enumerates before Holds items) :
    items = [] ↔ ∀ place item, ¬ Holds place item := by
  rw [List.eq_nil_iff_forall_not_mem, forall_comm]
  simp only [h.mem_iff, not_exists]

theorem congr {Other : π → γ → Prop} (h : Enumerates before Holds items)
    (hiff : ∀ place item, Holds place item ↔ Other place item) :
    Enumerates before Other items := by
  obtain ⟨listed, hascending, hmem, rfl⟩ := h
  exact ⟨listed, hascending, fun place item => (hmem place item).trans (hiff place item), rfl⟩

/-- What is picked from ascending visits is an enumeration. -/
theorem filterMap {visits : List (π × β)} (h : visits.Pairwise fun a b => before a.1 b.1)
    (pick : π → β → Option γ) :
    Enumerates before (fun place item => ∃ b, (place, b) ∈ visits ∧ pick place b = some item)
      (visits.filterMap fun visit => pick visit.1 visit.2) := by
  refine ⟨visits.filterMap fun visit => (pick visit.1 visit.2).map (visit.1, ·), ?_, ?_, ?_⟩
  · refine List.Pairwise.filterMap _ (fun a b hab x hx y hy => ?_) h
    obtain ⟨_, -, rfl⟩ := Option.map_eq_some_iff.mp hx
    obtain ⟨_, -, rfl⟩ := Option.map_eq_some_iff.mp hy
    exact hab
  · intro place item
    simp only [List.mem_filterMap, Option.map_eq_some_iff, Prod.exists, Prod.mk.injEq]
    constructor
    · rintro ⟨p, b, hvisit, c, hpick, rfl, rfl⟩
      exact ⟨b, hvisit, hpick⟩
    · rintro ⟨b, hvisit, hpick⟩
      exact ⟨place, b, hvisit, item, hpick, rfl, rfl⟩
  · rw [List.map_filterMap]
    simp [Function.comp_def]

theorem map (h : Enumerates before Holds items) (f : γ → β) :
    Enumerates before (fun place item => ∃ x, Holds place x ∧ item = f x) (items.map f) := by
  obtain ⟨listed, hascending, hmem, rfl⟩ := h
  refine ⟨listed.map fun entry => (entry.1, f entry.2), List.pairwise_map.mpr hascending, ?_, ?_⟩
  · intro place item
    simp only [List.mem_map, Prod.exists, Prod.mk.injEq, ← hmem]
    constructor
    · rintro ⟨p, x, hx, rfl, rfl⟩
      exact ⟨x, hx, rfl⟩
    · rintro ⟨x, hx, rfl⟩
      exact ⟨place, x, hx, rfl, rfl⟩
  · simp

theorem filter (h : Enumerates before Holds items) (keep : γ → Bool) :
    Enumerates before (fun place item => Holds place item ∧ keep item) (items.filter keep) := by
  obtain ⟨listed, hascending, hmem, rfl⟩ := h
  refine ⟨listed.filter fun entry => keep entry.2, hascending.filter _, ?_, ?_⟩
  · intro place item
    rw [List.mem_filter, hmem]
  · rw [List.filter_map]
    rfl

/-- Enumerations in a row are one, by the position in the row first. -/
theorem flatten {xs : List α} {parts : List (List γ)} {HoldsIn : α → π → γ → Prop}
    (h : List.Forall₂ (fun x part => Enumerates before (HoldsIn x) part) xs parts) :
    Enumerates (Prod.Lex Nat.lt before)
      (fun place item => ∃ x, xs[place.1]? = some x ∧ HoldsIn x place.2 item) parts.flatten := by
  induction h with
  | nil => exact ⟨[], List.Pairwise.nil, by simp, rfl⟩
  | @cons x part xs parts hfirst _ ih =>
    obtain ⟨first, hfirst, hmem, rfl⟩ := hfirst
    obtain ⟨rest, hrest, hrestmem, hparts⟩ := ih
    -- the first part keeps its places under position 0, the others move on by one
    refine ⟨first.map (fun entry => ((0, entry.1), entry.2)) ++
      rest.map (fun entry => ((entry.1.1 + 1, entry.1.2), entry.2)), ?_, ?_, ?_⟩
    · refine List.pairwise_append.mpr ⟨?_, ?_, ?_⟩
      · exact List.pairwise_map.mpr (hfirst.imp fun hab => .right 0 hab)
      · refine List.pairwise_map.mpr (hrest.imp fun {a b} hab => ?_)
        rcases Prod.lex_def.mp hab with hlt | ⟨heq, hlt⟩
        · exact .left _ _ (Nat.succ_lt_succ hlt)
        · dsimp only
          rw [heq]
          exact .right _ hlt
      · intro a ha b hb
        obtain ⟨_, -, rfl⟩ := List.mem_map.mp ha
        obtain ⟨_, -, rfl⟩ := List.mem_map.mp hb
        exact .left _ _ (Nat.succ_pos _)
    · rintro ⟨position, place⟩ item
      cases position with
      | zero => simp [← hmem]
      | succ position =>
        have hiff := hrestmem (position, place) item
        simpa using hiff
    · simp [hparts, Function.comp_def]

theorem nodup (h : Enumerates before Holds items) (hirrefl : ∀ place, ¬ before place place)
    (hplace : ∀ {p q item}, Holds p item → Holds q item → p = q) : items.Nodup := by
  obtain ⟨listed, hascending, hmem, rfl⟩ := h
  rw [List.Nodup, List.pairwise_map]
  refine hascending.imp_of_mem fun {a b} ha hb hab heq => ?_
  have hp : Holds a.1 a.2 := (hmem _ _).mp ha
  have hq : Holds b.1 b.2 := (hmem _ _).mp hb
  rw [← heq] at hq
  exact hirrefl a.1 (by rwa [hplace hp hq] at hab ⊢)

/-- There is one enumeration of what holds, if no two places precede each other. -/
theorem unique {others : List γ} (h : Enumerates before Holds items)
    (hasymm : ∀ {p q}, before p q → ¬ before q p) (hothers : Enumerates before Holds others) :
    items = others := by
  obtain ⟨listed, hlisted, hmem, rfl⟩ := h
  obtain ⟨found, hfound, hmem', rfl⟩ := hothers
  have hsame : ∀ entry, entry ∈ listed ↔ entry ∈ found := by
    intro entry
    rw [hmem entry.1 entry.2, hmem' entry.1 entry.2]
  have hirrefl : ∀ {p}, ¬ before p p := fun {p} hp => hasymm hp hp
  have hnodup (entries : List (π × γ)) (h : entries.Pairwise fun a b => before a.1 b.1) :
      entries.Nodup := by
    refine h.imp ?_
    rintro a b hab rfl
    exact hirrefl hab
  have hperm := (List.perm_ext_iff_of_nodup (hnodup _ hlisted) (hnodup _ hfound)).mpr hsame
  rw [hperm.eq_of_pairwise (fun a b _ _ hab hba => absurd hba (hasymm hab)) hlisted hfound]

end Enumerates

/-- Searching ascending visits finds something exactly where nothing is found at any place before. -/
theorem findSome?_eq_some_iff_first {visits : List (π × β)} {pick : π × β → Option γ} {item : γ}
    (h : visits.Pairwise fun a b => before a.1 b.1) (hasymm : ∀ {p q}, before p q → ¬ before q p) :
    visits.findSome? pick = some item ↔
      ∃ visit ∈ visits, pick visit = some item ∧
        ∀ earlier ∈ visits, before earlier.1 visit.1 → pick earlier = none := by
  constructor
  · intro hfind
    obtain ⟨front, visit, behind, rfl, hpick, hfront⟩ := List.findSome?_eq_some_iff.mp hfind
    refine ⟨visit, by simp, hpick, ?_⟩
    intro earlier hmem hbefore
    obtain ⟨-, hrest, -⟩ := List.pairwise_append.mp h
    rcases List.mem_append.mp hmem with hearlier | hlater
    · exact hfront earlier hearlier
    · -- the visit itself and those behind it do not come before it
      rcases List.mem_cons.mp hlater with rfl | hbehind
      · exact absurd hbefore (hasymm hbefore)
      · exact absurd hbefore (hasymm ((List.pairwise_cons.mp hrest).1 earlier hbehind))
  · rintro ⟨visit, hmem, hpick, hfirst⟩
    obtain ⟨front, behind, rfl⟩ := List.append_of_mem hmem
    refine List.findSome?_eq_some_iff.mpr ⟨front, visit, behind, rfl, hpick, ?_⟩
    intro earlier hearlier
    have hbefore := (List.pairwise_append.mp h).2.2 earlier hearlier visit List.mem_cons_self
    exact hfirst earlier (List.mem_append_left _ hearlier) hbefore

/-- Going through ascending visits as long as all is well comes to those at which, and before which,
all is well. -/
theorem mem_takeWhile_iff_of_ascending {visits : List (π × β)} {visit : π × β} {well : π × β → Bool}
    (h : visits.Pairwise fun a b => before a.1 b.1) (hasymm : ∀ {p q}, before p q → ¬ before q p) :
    visit ∈ visits.takeWhile well ↔
      visit ∈ visits ∧ well visit ∧
        ∀ earlier ∈ visits, before earlier.1 visit.1 → well earlier := by
  induction visits with
  | nil => simp
  | cons head rest ih =>
    obtain ⟨hhead, hrest⟩ := List.pairwise_cons.mp h
    by_cases hwell : well head
    · rw [List.takeWhile_cons_of_pos hwell, List.mem_cons, ih hrest, List.mem_cons]
      constructor
      · rintro (rfl | ⟨hmem, hvisit, hfirst⟩)
        · refine ⟨Or.inl rfl, hwell, ?_⟩
          intro earlier hearlier hbefore
          rcases List.mem_cons.mp hearlier with rfl | hbehind
          · exact hwell
          · exact absurd (hhead earlier hbehind) (hasymm hbefore)
        · exact ⟨Or.inr hmem, hvisit, List.forall_mem_cons.mpr ⟨fun _ => hwell, hfirst⟩⟩
      · rintro ⟨rfl | hmem, hvisit, hfirst⟩
        · exact Or.inl rfl
        · exact Or.inr ⟨hmem, hvisit, (List.forall_mem_cons.mp hfirst).2⟩
    · rw [List.takeWhile_cons_of_neg hwell]
      refine iff_of_false List.not_mem_nil ?_
      rintro ⟨hmem, hvisit, hfirst⟩
      rcases List.mem_cons.mp hmem with rfl | hbehind
      · exact hwell hvisit
      · exact hwell (hfirst head List.mem_cons_self (hhead visit hbehind))

/-! ### Places in a tree -/

/-- What is seen below a child, with places seen from the parent. -/
def below (step : α) (visits : List (List α × β)) : List (List α × β) :=
  visits.map fun visit => (step :: visit.1, visit.2)

theorem mem_below {step : α} {visits : List (List α × β)} {place : List α} {b : β} :
    (place, b) ∈ below step visits ↔ ∃ rest, place = step :: rest ∧ (rest, b) ∈ visits := by
  simp only [below, List.mem_map, Prod.exists, Prod.mk.injEq]
  constructor
  · rintro ⟨rest, _, hvisit, rfl, rfl⟩
    exact ⟨rest, rfl, hvisit⟩
  · rintro ⟨rest, rfl, hvisit⟩
    exact ⟨rest, b, hvisit, rfl, rfl⟩

/-- The places of visits ascend lexicographically. -/
def Ascending (r : α → α → Prop) (visits : List (List α × β)) : Prop :=
  visits.Pairwise fun a b => List.Lex r a.1 b.1

namespace Ascending

variable {r : α → α → Prop}

theorem cons_node {visits : List (List α × β)} (h : Ascending r visits)
    (hbelow : ∀ visit ∈ visits, visit.1 ≠ []) (b : β) : Ascending r (([], b) :: visits) := by
  refine List.pairwise_cons.mpr ⟨fun visit hvisit => ?_, h⟩
  obtain ⟨step, rest, hplace⟩ := List.exists_cons_of_ne_nil (hbelow visit hvisit)
  rw [hplace]
  exact .nil

theorem below_append {step : α} {first behind : List (List α × β)} (hfirst : Ascending r first)
    (hbehind : Ascending r behind)
    (hlater : ∀ visit ∈ behind, ∃ later rest, visit.1 = later :: rest ∧ r step later) :
    Ascending r (below step first ++ behind) := by
  refine List.pairwise_append.mpr ⟨?_, hbehind, ?_⟩
  · exact List.pairwise_map.mpr (hfirst.imp fun h => .cons h)
  · intro visit hvisit other hother
    obtain ⟨seen, -, rfl⟩ := List.mem_map.mp hvisit
    obtain ⟨later, rest, hplace, hstep⟩ := hlater other hother
    rw [hplace]
    exact .rel hstep

end Ascending

theorem lex_irrefl {r : α → α → Prop} (h : ∀ a, ¬ r a a) :
    ∀ place : List α, ¬ List.Lex r place place
  | [], hlex => nomatch hlex
  | a :: rest, hlex => by
    cases hlex with
    | cons hrest => exact lex_irrefl h rest hrest
    | rel hstep => exact h a hstep

end SchemaEnums
