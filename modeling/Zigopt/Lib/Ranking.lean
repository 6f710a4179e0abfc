/-
Module: Zigopt.Lib.Ranking
Layer: Lib
Purpose: The SQL window function `rank()`: one more than the number of rows of the partition that precede
  the row. The rows of rank 1 are those that no row precedes.
Main exports: Ranking.rank, Ranking.rank_eq_one_iff, Ranking.exists_unpreceded
-/
import Mathlib.Data.List.Basic

namespace Ranking

variable {α κ : Type} [DecidableEq κ]

/-- `rank() over (partition by … order by …)`. -/
def rank (partition : α → κ) (precedes : α → α → Bool) (rows : List α) (row : α) : Nat :=
  (rows.filter fun other => partition other = partition row && precedes other row).length + 1

/-- The first of a partition is the row that no other of it precedes. -/
theorem rank_eq_one_iff {partition : α → κ} {precedes : α → α → Bool} {rows : List α} {row : α} :
    rank partition precedes rows row = 1 ↔
      ∀ other ∈ rows, partition other = partition row → precedes other row = false := by
  simp [rank]

/-- A finite partition has a row that no other precedes. -/
theorem exists_unpreceded {precedes : α → α → Bool} (irreflexive : ∀ row, precedes row row = false)
    (transitive : ∀ first second third, precedes first second → precedes second third → precedes first third)
    {rows : List α} (nonempty : rows ≠ []) : ∃ row ∈ rows, ∀ other ∈ rows, precedes other row = false := by
  induction rows with
  | nil => exact absurd rfl nonempty
  | cons first rest inductionHypothesis =>
      by_cases single : rest = []
      · refine ⟨first, List.mem_cons_self, ?_⟩
        intro other member
        rw [single, List.mem_singleton] at member
        rw [member]
        exact irreflexive first
      · rcases inductionHypothesis single with ⟨leader, member, leads⟩
        cases beaten : precedes first leader with
        | false =>
            refine ⟨leader, List.mem_cons_of_mem _ member, ?_⟩
            intro other otherMember
            rcases List.mem_cons.mp otherMember with rfl | inRest
            · exact beaten
            · exact leads other inRest
        | true =>
            refine ⟨first, List.mem_cons_self, ?_⟩
            intro other otherMember
            rcases List.mem_cons.mp otherMember with rfl | inRest
            · exact irreflexive other
            · -- what precedes the first row would precede the leader of the rest
              by_contra precedesFirst
              have precedesLeader := transitive other first leader (by simpa using precedesFirst) beaten
              rw [leads other inRest] at precedesLeader
              cases precedesLeader

end Ranking
