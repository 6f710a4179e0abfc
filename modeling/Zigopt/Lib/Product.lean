/-
Module: Zigopt.Lib.Product
Layer: Lib
Purpose: The cartesian product of a list of lists, in the order of nested loops. A set of its tuples that
  has as many elements as the product contains every tuple.
Main exports: product, mem_product, length_product, length_le_of_covers, covers_of_count
-/
import Mathlib.Algebra.BigOperators.Group.List.Basic
import Mathlib.Data.List.Dedup
import Mathlib.Data.List.Forall2

namespace Product

variable {α : Type}

/-- `itertools.product(*factors)`. -/
def product : List (List α) → List (List α)
  | [] => [[]]
  | factor :: factors => factor.flatMap fun value => (product factors).map (value :: ·)

/-- The tuples of the product take one value of each factor. -/
theorem mem_product {factors : List (List α)} {tuple : List α} :
    tuple ∈ product factors ↔ List.Forall₂ (fun value factor => value ∈ factor) tuple factors := by
  induction factors generalizing tuple with
  | nil => simp [product]
  | cons factor factors inductionHypothesis =>
      simp only [product, List.mem_flatMap, List.mem_map, inductionHypothesis, List.forall₂_cons_right_iff]
      constructor
      · rintro ⟨value, inFactor, rest, inRest, rfl⟩
        exact ⟨value, rest, inFactor, inRest, rfl⟩
      · rintro ⟨value, rest, inFactor, inRest, rfl⟩
        exact ⟨value, inFactor, rest, inRest, rfl⟩

/-- The size of a product is the product of the sizes. -/
theorem length_product (factors : List (List α)) : (product factors).length = (factors.map List.length).prod := by
  induction factors with
  | nil => rfl
  | cons factor factors inductionHypothesis =>
      simp [product, List.length_flatMap, inductionHypothesis]

theorem nodup_product {factors : List (List α)} (distinct : ∀ factor ∈ factors, factor.Nodup) :
    (product factors).Nodup := by
  induction factors with
  | nil => exact List.nodup_singleton []
  | cons factor factors inductionHypothesis =>
      have rest := inductionHypothesis fun other member => distinct other (List.mem_cons_of_mem _ member)
      rw [product, List.nodup_flatMap]
      constructor
      · intro value _
        exact rest.map (List.cons_injective)
      · apply (distinct factor List.mem_cons_self).imp
        intro first second apart tuple inFirst inSecond
        obtain ⟨_, _, rfl⟩ := List.mem_map.mp inFirst
        obtain ⟨_, _, same⟩ := List.mem_map.mp inSecond
        exact apart (List.cons.inj same).1.symm

/-- A set of tuples that contains the product has as many elements at least. -/
theorem length_le_of_covers [DecidableEq α] {factors : List (List α)} {tuples : List (List α)}
    (distinct : ∀ factor ∈ factors, factor.Nodup) (covered : product factors ⊆ tuples) :
    (factors.map List.length).prod ≤ tuples.dedup.length := by
  rw [← length_product]
  exact (List.subperm_of_subset (nodup_product distinct) fun _ member =>
    List.mem_dedup.mpr (covered member)).length_le

/-- Tuples of the product that number as many as the product are all of them. -/
theorem covers_of_count [DecidableEq α] {factors : List (List α)} {tuples : List (List α)}
    (inside : tuples ⊆ product factors) (count : tuples.dedup.length = (factors.map List.length).prod) :
    product factors ⊆ tuples := by
  have distinctInside : tuples.dedup ⊆ product factors := fun _ member => inside (List.mem_dedup.mp member)
  have part := List.subperm_of_subset tuples.nodup_dedup distinctInside
  have whole := part.perm_of_length_le (Nat.le_of_eq ((length_product factors).trans count.symm))
  intro tuple member
  exact List.mem_dedup.mp (whole.symm.subset member)

end Product
