/-
Module: Zigopt.Lib.Drawing
Layer: Lib
Purpose: Drawing from a pool at random without putting back, and from all items once the pool is used up.
Main exports: Drawing, Drawing.items, Drawing.fresh_or_exhausted
-/
import Mathlib.Data.Finset.Card
import Mathlib.Data.List.TakeDrop

/-- What was drawn from the pool, up to the limit, and the items chosen after that. -/
structure Drawing {α : Type} (pool : Finset α) (all : List α) (limit : Nat) where
  fresh : List α
  fresh_nodup : fresh.Nodup
  fresh_mem : ∀ item ∈ fresh, item ∈ pool
  fresh_length : fresh.length = min limit pool.card
  repeated : List α
  repeated_mem : ∀ item ∈ repeated, item ∈ all
  repeated_length : repeated.length = all.length - min limit pool.card

namespace Drawing

variable {α : Type} {pool : Finset α} {all : List α} {limit : Nat}

/-- Fresh items first, repeated ones only after them, and no more than were asked for. -/
def items (drawing : Drawing pool all limit) : List α :=
  (drawing.fresh ++ drawing.repeated).take limit

theorem mem_items {drawing : Drawing pool all limit} {item : α} (member : item ∈ drawing.items) :
    item ∈ pool ∨ item ∈ all := by
  rcases List.mem_append.mp (List.mem_of_mem_take member) with isFresh | isRepeated
  · exact Or.inl (drawing.fresh_mem item isFresh)
  · exact Or.inr (drawing.repeated_mem item isRepeated)

/-- A drawing that is short of the limit has used up the pool. -/
theorem mem_fresh_of_length_lt [DecidableEq α] {drawing : Drawing pool all limit}
    (short : drawing.fresh.length < limit) {item : α} (inPool : item ∈ pool) : item ∈ drawing.fresh := by
  have cardIs : drawing.fresh.length = pool.card := by
    have lengthIs := drawing.fresh_length
    omega
  have inside : drawing.fresh.toFinset ⊆ pool := by
    intro other member
    exact drawing.fresh_mem other (List.mem_toFinset.mp member)
  have whole : drawing.fresh.toFinset = pool := by
    apply Finset.eq_of_subset_of_card_le inside
    rw [List.toFinset_card_of_nodup drawing.fresh_nodup, cardIs]
  rw [← whole] at inPool
  exact List.mem_toFinset.mp inPool

/-- Each item is from the pool and not among those before it, unless these are the whole pool. -/
theorem fresh_or_exhausted [DecidableEq α] {drawing : Drawing pool all limit} {before after : List α} {item : α}
    (drawn : drawing.items = before ++ item :: after) :
    (item ∈ pool ∧ item ∉ before) ∨ ∀ other ∈ pool, other ∈ before := by
  have withinLimit : before.length < limit := by
    have lengthIs := congrArg List.length drawn
    simp only [items, List.length_take, List.length_append, List.length_cons] at lengthIs
    omega
  have drawnIs : drawing.fresh ++ drawing.repeated =
      before ++ item :: (after ++ (drawing.fresh ++ drawing.repeated).drop limit) := by
    rw [← List.cons_append, ← List.append_assoc, ← drawn]
    exact (List.take_append_drop limit _).symm
  by_cases inFresh : before.length < drawing.fresh.length
  · left
    rcases List.append_eq_append_iff.mp drawnIs with ⟨rest, beforeIs, _⟩ | ⟨rest, freshIs, restIs⟩
    · rw [beforeIs, List.length_append] at inFresh
      omega
    · cases rest with
      | nil =>
          rw [freshIs, List.append_nil] at inFresh
          exact absurd inFresh (Nat.lt_irrefl _)
      | cons head rest =>
          rw [List.cons_append, List.cons.injEq] at restIs
          rw [← restIs.1] at freshIs
          have distinct := drawing.fresh_nodup
          rw [freshIs, List.nodup_append'] at distinct
          refine ⟨drawing.fresh_mem item (freshIs ▸ by simp), ?_⟩
          intro earlier
          exact distinct.2.2 earlier List.mem_cons_self
  · right
    intro other inPool
    have isFresh := mem_fresh_of_length_lt (Nat.lt_of_le_of_lt (Nat.not_lt.mp inFresh) withinLimit) inPool
    rcases List.append_eq_append_iff.mp drawnIs with ⟨rest, beforeIs, _⟩ | ⟨rest, freshIs, _⟩
    · rw [beforeIs]
      exact List.mem_append_left _ isFresh
    · have restIs : rest = [] := by
        rw [freshIs, List.length_append] at inFresh
        exact List.eq_nil_of_length_eq_zero (by omega)
      rw [freshIs, restIs, List.append_nil] at isFresh
      exact isFresh

end Drawing
