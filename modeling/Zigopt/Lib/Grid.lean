/-
Module: Zigopt.Lib.Grid
Layer: Lib
Purpose: The points of a finite grid, numbered by a mixed radix in which the first axis varies fastest. The
  numbers repeat after as many points as the grid has, and up to there each point has one number.
Main exports: Grid.point, Grid.size, Grid.exists_point, Grid.point_injective, Grid.nodup_of_point_injective,
  Grid.point_add_size
-/
import Mathlib.Data.List.Forall2
import Mathlib.Data.List.GetD
import Mathlib.Data.List.Nodup
import Mathlib.Algebra.BigOperators.Group.List.Basic

namespace Grid

variable {α : Type} [Inhabited α]

/-- The point with the number: on each axis the value at the remainder, with the quotient for the rest. -/
def point : List (List α) → Nat → List α
  | [], _ => []
  | axis :: rest, index => axis.getD (index % axis.length) default :: point rest (index / axis.length)

/-- The number of points of a grid. -/
def size (axes : List (List α)) : Nat :=
  (axes.map List.length).prod

/-- One value of each axis. -/
def OnGrid (axes : List (List α)) (values : List α) : Prop :=
  List.Forall₂ (fun axis value => value ∈ axis) axes values

omit [Inhabited α] in
theorem size_pos {axes : List (List α)} (nonempty : ∀ axis ∈ axes, axis ≠ []) : 0 < size axes := by
  induction axes with
  | nil => exact Nat.one_pos
  | cons axis rest inductionHypothesis =>
      rw [size, List.map_cons, List.prod_cons]
      apply Nat.mul_pos
      · exact List.length_pos_of_ne_nil (nonempty axis List.mem_cons_self)
      · exact inductionHypothesis fun other member => nonempty other (List.mem_cons_of_mem _ member)

theorem getD_mod_mem {axis : List α} (nonempty : axis ≠ []) (index : Nat) :
    axis.getD (index % axis.length) default ∈ axis := by
  have inRange : index % axis.length < axis.length := Nat.mod_lt _ (List.length_pos_of_ne_nil nonempty)
  rw [List.getD_eq_getElem _ _ inRange]
  exact List.getElem_mem inRange

theorem point_onGrid {axes : List (List α)} (nonempty : ∀ axis ∈ axes, axis ≠ []) (index : Nat) :
    OnGrid axes (point axes index) := by
  induction axes generalizing index with
  | nil => exact .nil
  | cons axis rest inductionHypothesis =>
      apply List.Forall₂.cons
      · exact getD_mod_mem (nonempty axis List.mem_cons_self) index
      · exact inductionHypothesis (fun other member => nonempty other (List.mem_cons_of_mem _ member)) _

/-- The points come round again after one pass over the grid. -/
theorem point_add_size (axes : List (List α)) (index : Nat) :
    point axes (index + size axes) = point axes index := by
  induction axes generalizing index with
  | nil => rfl
  | cons axis rest inductionHypothesis =>
      have sizeIs : size (axis :: rest) = axis.length * size rest := by rw [size, List.map_cons, List.prod_cons]; rfl
      rw [point, point, sizeIs, Nat.add_mul_mod_self_left]
      congr 1
      by_cases empty : axis.length = 0
      · rw [empty, Nat.zero_mul, Nat.add_zero]
      · rw [Nat.add_mul_div_left _ _ (Nat.pos_of_ne_zero empty)]
        exact inductionHypothesis _

/-- Every point of the grid has a number below the size. -/
theorem exists_point {axes : List (List α)} {values : List α} (onGrid : OnGrid axes values) :
    ∃ index < size axes, point axes index = values := by
  induction onGrid with
  | nil => exact ⟨0, Nat.one_pos, rfl⟩
  | @cons axis value rest values member _ inductionHypothesis =>
      rcases inductionHypothesis with ⟨high, highBelow, highPoint⟩
      rcases List.getElem_of_mem member with ⟨low, lowBelow, isValue⟩
      have positive : 0 < axis.length := Nat.zero_lt_of_lt lowBelow
      refine ⟨low + axis.length * high, ?_, ?_⟩
      · rw [size, List.map_cons, List.prod_cons]
        calc low + axis.length * high < axis.length + axis.length * high := Nat.add_lt_add_right lowBelow _
          _ = axis.length * (high + 1) := by rw [Nat.mul_succ, Nat.add_comm]
          _ ≤ axis.length * size rest := Nat.mul_le_mul_left _ highBelow
      · rw [point, Nat.add_mul_mod_self_left, Nat.mod_eq_of_lt lowBelow, Nat.add_mul_div_left _ _ positive,
          Nat.div_eq_of_lt lowBelow, Nat.zero_add, highPoint, List.getD_eq_getElem _ _ lowBelow, isValue]

/-- Below the size, different numbers have different points. -/
theorem point_injective {axes : List (List α)} (nodup : ∀ axis ∈ axes, axis.Nodup) {first second : Nat}
    (firstBelow : first < size axes) (secondBelow : second < size axes)
    (same : point axes first = point axes second) : first = second := by
  induction axes generalizing first second with
  | nil => exact (Nat.lt_one_iff.mp firstBelow).trans (Nat.lt_one_iff.mp secondBelow).symm
  | cons axis rest inductionHypothesis =>
      have sizeIs : size (axis :: rest) = axis.length * size rest := by rw [size, List.map_cons, List.prod_cons]; rfl
      rw [sizeIs] at firstBelow secondBelow
      have positive : 0 < axis.length := Nat.pos_of_mul_pos_right (Nat.zero_lt_of_lt firstBelow)
      rcases List.cons.inj same with ⟨sameValue, sameRest⟩
      have firstLow : first % axis.length < axis.length := Nat.mod_lt _ positive
      have secondLow : second % axis.length < axis.length := Nat.mod_lt _ positive
      rw [List.getD_eq_getElem _ _ firstLow, List.getD_eq_getElem _ _ secondLow] at sameValue
      have sameLow := (nodup axis List.mem_cons_self).getElem_inj_iff.mp sameValue
      have sameHigh := inductionHypothesis (fun other member => nodup other (List.mem_cons_of_mem _ member))
        (Nat.div_lt_of_lt_mul firstBelow) (Nat.div_lt_of_lt_mul secondBelow) sameRest
      rw [← Nat.mod_add_div first axis.length, ← Nat.mod_add_div second axis.length, sameLow, sameHigh]

/-- Where the points below the size are different, no axis has a value twice. -/
theorem nodup_of_point_injective {axes : List (List α)} (nonempty : ∀ axis ∈ axes, axis ≠ [])
    (injective : ∀ first < size axes, ∀ second < size axes, point axes first = point axes second → first = second) :
    ∀ axis ∈ axes, axis.Nodup := by
  induction axes with
  | nil => exact fun axis member => absurd member List.not_mem_nil
  | cons axis rest inductionHypothesis =>
      have sizeIs : size (axis :: rest) = axis.length * size rest := by rw [size, List.map_cons, List.prod_cons]; rfl
      have restNonempty : ∀ other ∈ rest, other ≠ [] := fun other member => nonempty other (List.mem_cons_of_mem _ member)
      have positive := List.length_pos_of_ne_nil (nonempty axis List.mem_cons_self)
      intro other member
      rcases List.mem_cons.mp member with rfl | inRest
      · rw [List.nodup_iff_injective_get]
        intro first second same
        -- the numbers below the length of the first axis differ in the first value only
        have below : ∀ index : Fin other.length, (index : ℕ) < size (other :: rest) := by
          intro index
          rw [sizeIs]
          exact Nat.lt_of_lt_of_le index.isLt (Nat.le_mul_of_pos_right _ (size_pos restNonempty))
        apply Fin.ext
        apply injective first (below first) second (below second)
        rw [point, point, Nat.mod_eq_of_lt first.isLt, Nat.mod_eq_of_lt second.isLt, Nat.div_eq_of_lt first.isLt,
          Nat.div_eq_of_lt second.isLt, List.getD_eq_getElem _ _ first.isLt, List.getD_eq_getElem _ _ second.isLt]
        congr 1
      · apply inductionHypothesis restNonempty _ other inRest
        intro first firstBelow second secondBelow same
        have bounds : ∀ index < size rest, axis.length * index < size (axis :: rest) := by
          intro index below
          rw [sizeIs]
          exact Nat.mul_lt_mul_of_pos_left below positive
        apply Nat.eq_of_mul_eq_mul_left positive
        apply injective _ (bounds first firstBelow) _ (bounds second secondBelow)
        rw [point, point, Nat.mul_mod_right, Nat.mul_mod_right, Nat.mul_div_cancel_left _ positive,
          Nat.mul_div_cancel_left _ positive, same]

end Grid
