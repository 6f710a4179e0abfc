/-
Module: Zigopt.Lib.Pareto
Layer: Lib
Purpose: Maximization over several objectives. A point dominates another one if it is nowhere worse and
  somewhere better; the Pareto-efficient points of a list are those that none of the list dominates.
Main exports: Pareto.Dominates, Pareto.Efficient, Pareto.FindsEfficient, Pareto.dominates_map_iff,
  Pareto.efficientPoints
-/
import Mathlib.Data.List.Forall2
import Mathlib.Order.Lattice

namespace Pareto

variable {α β ι : Type} [LinearOrder β]

/-- Nowhere worse, and not the same. -/
def Dominates (first second : List β) : Prop :=
  List.Forall₂ (· ≥ ·) first second ∧ first ≠ second

/-- No other point dominates the point. -/
def Efficient (points : List (List β × α)) (point : List β × α) : Prop :=
  ∀ other ∈ points, ¬Dominates other.1 point.1

/-- What a search for the Pareto frontier answers: the efficient points, where each point has the same number
    of coordinates. -/
def FindsEfficient (frontier : List (List β × α) → List α) : Prop :=
  ∀ (points : List (List β × α)) (dimension : Nat), points ≠ [] →
    (∀ point ∈ points, point.1.length = dimension) →
      ∀ answer, answer ∈ frontier points ↔ ∃ point ∈ points, point.2 = answer ∧ Efficient points point

/-- Points given by their coordinates: somewhere better means better in one of them. -/
theorem dominates_map_iff {first second : ι → β} {indices : List ι} :
    Dominates (indices.map first) (indices.map second) ↔
      (∀ index ∈ indices, second index ≤ first index) ∧ ∃ index ∈ indices, second index < first index := by
  unfold Dominates
  rw [List.forall₂_map_left_iff, List.forall₂_map_right_iff, List.forall₂_same, Ne, List.map_inj_left]
  constructor
  · rintro ⟨nowhereWorse, different⟩
    push Not at different
    obtain ⟨index, member, differs⟩ := different
    exact ⟨nowhereWorse, index, member, lt_of_le_of_ne (nowhereWorse index member) differs.symm⟩
  · rintro ⟨nowhereWorse, index, member, better⟩
    exact ⟨nowhereWorse, fun same => absurd (same index member) better.ne'⟩

instance (first second : List β) : Decidable (Dominates first second) :=
  inferInstanceAs (Decidable (_ ∧ _))

instance (points : List (List β × α)) (point : List β × α) : Decidable (Efficient points point) :=
  inferInstanceAs (Decidable (∀ other ∈ points, ¬Dominates other.1 point.1))

/-- The search that compares each point with each. -/
def efficientPoints (points : List (List β × α)) : List α :=
  (points.filter fun point => Efficient points point).map Prod.snd

theorem efficientPoints_findsEfficient : FindsEfficient (@efficientPoints α β _) := by
  intro points dimension _ _ answer
  simp only [efficientPoints, List.mem_map, List.mem_filter, decide_eq_true_eq]
  constructor
  · rintro ⟨point, ⟨member, efficient⟩, same⟩
    exact ⟨point, member, same, efficient⟩
  · rintro ⟨point, member, same, efficient⟩
    exact ⟨point, ⟨member, efficient⟩, same⟩

end Pareto
