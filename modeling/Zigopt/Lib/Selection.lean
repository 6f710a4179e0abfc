/-
Module: Zigopt.Lib.Selection
Layer: Lib
Purpose: `max` and `sort(reverse=True)` with a key that may raise, or may be missing: missing keys do not
  compare. Where every key is a number, `max` answers the first element with the largest key.
Main exports: Selection.maxOption, Selection.sortDescending, Selection.maxOption_of_numbers,
  Selection.sortDescending_of_numbers
-/
import Mathlib.Data.List.Sort
import Zigopt.Lib.Raising

namespace Selection

variable {ε α β : Type} [LinearOrder β] (incomparable : ε) (key : α → Except ε (Option β))

/-- One comparison of `max`: the best so far is replaced by a larger element only. -/
def largerOf (best : Option (α × Option β)) (item : α) : Except ε (Option (α × Option β)) := do
  let itemKey ← key item
  match best with
  | none => pure (some (item, itemKey))
  | some (bestItem, some bestKey) =>
      match itemKey with
      | none => .error incomparable
      | some number => pure (some (if bestKey < number then (item, itemKey) else (bestItem, some bestKey)))
  | some (_, none) => .error incomparable

/-- `max(items, key=key)`, and nothing for an empty list. -/
def maxOption (items : List α) : Except ε (Option α) := do
  let best ← items.foldlM (largerOf incomparable key) none
  pure (best.map Prod.fst)

/-- The elements whose key is a number, with it. -/
def withNumbers (items : List α) : Except ε (List (α × β)) := do
  let keyed ← items.mapM fun item => (key item).map fun itemKey => itemKey.map (item, ·)
  pure (keyed.filterMap id)

/-- `[item for item in items if is_number(key(item))]`, sorted by the key in reverse; elements with the same
    key stay in order. -/
def sortDescending (items : List α) : Except ε (List α) := do
  let numbered ← withNumbers key items
  pure ((numbered.insertionSort fun first second => second.2 ≤ first.2).map Prod.fst)

variable {incomparable key} {number : α → β}

theorem foldlM_largerOf (items : List α) (numbers : ∀ item ∈ items, key item = .ok (some (number item)))
    (best : α) : ∃ final, items.foldlM (largerOf incomparable key) (some (best, some (number best))) =
      .ok (some (final, some (number final))) ∧ final ∈ best :: items ∧
        ∀ item ∈ best :: items, number item ≤ number final := by
  induction items generalizing best with
  | nil =>
      refine ⟨best, rfl, List.mem_singleton_self best, ?_⟩
      intro item member
      rw [List.mem_singleton.mp member]
  | cons item rest inductionHypothesis =>
      have restNumbers := fun other member => numbers other (List.mem_cons_of_mem item member)
      rw [List.foldlM_cons]
      by_cases larger : number best < number item
      · have replaced : largerOf incomparable key (some (best, some (number best))) item =
            .ok (some (item, some (number item))) := by
          simp [largerOf, numbers item List.mem_cons_self, larger, pure, Except.pure]
        obtain ⟨final, folded, member, greatest⟩ := inductionHypothesis restNumbers item
        rw [replaced, Raising.ok_bind]
        refine ⟨final, folded, List.mem_cons_of_mem best member, ?_⟩
        intro other otherMember
        rcases List.mem_cons.mp otherMember with rfl | later
        · exact larger.le.trans (greatest item List.mem_cons_self)
        · exact greatest other later
      · have kept : largerOf incomparable key (some (best, some (number best))) item =
            .ok (some (best, some (number best))) := by
          simp [largerOf, numbers item List.mem_cons_self, larger, pure, Except.pure]
        obtain ⟨final, folded, member, greatest⟩ := inductionHypothesis restNumbers best
        rw [kept, Raising.ok_bind]
        refine ⟨final, folded, ?_, ?_⟩
        · rcases List.mem_cons.mp member with rfl | later
          · exact List.mem_cons_self
          · exact List.mem_cons_of_mem best (List.mem_cons_of_mem item later)
        · intro other otherMember
          rcases List.mem_cons.mp otherMember with rfl | later
          · exact greatest other List.mem_cons_self
          · rcases List.mem_cons.mp later with rfl | inRest
            · exact (not_lt.mp larger).trans (greatest best List.mem_cons_self)
            · exact greatest other (List.mem_cons_of_mem best inRest)

variable (incomparable) in
/-- Where every key is a number, `max` answers an element with a largest one, if there is any. -/
theorem maxOption_of_numbers {items : List α}
    (numbers : ∀ item ∈ items, key item = .ok (some (number item))) :
    ∃ answer, maxOption incomparable key items = .ok answer ∧ (answer = none ↔ items = []) ∧
      ∀ best ∈ answer, best ∈ items ∧ ∀ item ∈ items, number item ≤ number best := by
  cases items with
  | nil => exact ⟨none, rfl, iff_of_true rfl rfl, nofun⟩
  | cons first rest =>
      have started : largerOf incomparable key none first = .ok (some (first, some (number first))) := by
        simp [largerOf, numbers first List.mem_cons_self, pure, Except.pure]
      obtain ⟨final, folded, member, greatest⟩ :=
        @foldlM_largerOf _ _ _ _ incomparable _ _ rest
          (fun item later => numbers item (List.mem_cons_of_mem first later)) first
      refine ⟨some final, ?_, iff_of_false (Option.some_ne_none final) (List.cons_ne_nil first rest), ?_⟩
      · rw [maxOption, List.foldlM_cons, started, Raising.ok_bind, folded]
        rfl
      · intro best isBest
        rw [Option.mem_some_iff] at isBest
        exact isBest ▸ ⟨member, greatest⟩

omit [LinearOrder β] in
theorem withNumbers_of_numbers {items : List α}
    (numbers : ∀ item ∈ items, key item = .ok (some (number item))) :
    withNumbers key items = .ok (items.map fun item => (item, number item)) := by
  have mapped : (items.mapM fun item => (key item).map fun itemKey => itemKey.map (item, ·)) =
      .ok (items.map fun item => some (item, number item)) := by
    rw [Raising.mapM_eq_ok, List.forall₂_map_right_iff, List.forall₂_same]
    intro item member
    rw [numbers item member]
    rfl
  rw [withNumbers, mapped, Raising.ok_bind, List.filterMap_map]
  simp [pure, Except.pure]

/-- Where every key is a number, sorting keeps all elements. -/
theorem sortDescending_of_numbers {items : List α}
    (numbers : ∀ item ∈ items, key item = .ok (some (number item))) :
    ∃ sorted, sortDescending key items = .ok sorted ∧ sorted.Perm items := by
  refine ⟨_, by rw [sortDescending, withNumbers_of_numbers numbers, Raising.ok_bind]; rfl, ?_⟩
  have perm := (List.perm_insertionSort (fun first second : α × β => second.2 ≤ first.2)
    (items.map fun item => (item, number item))).map Prod.fst
  rwa [List.map_map, Function.comp_def, List.map_id''] at perm
  intro item
  rfl

end Selection
