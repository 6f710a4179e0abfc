/-
Module: Zigopt.Lib.LinearForm
Layer: Lib
Purpose: Linear forms as terms that name their columns, and as rows that have a weight for every column. A row made
  from terms with distinct names has the same value, however the columns are ordered, as long as it has them all.
Main exports: LinearForm.dot, LinearForm.dot_of_terms, LinearForm.dot_scale, LinearForm.dot_unit
-/
import Mathlib.Algebra.BigOperators.Group.Finset.Basic
import Mathlib.Algebra.BigOperators.Ring.Finset
import Mathlib.Tactic.Ring

namespace LinearForm

variable {κ τ R : Type} [CommRing R]

/-- The product of a row with a column of values. -/
def dot (weights values : List R) : R := (List.zipWith (· * ·) weights values).sum

@[simp] theorem dot_nil (values : List R) : dot [] values = 0 := rfl

@[simp] theorem dot_cons (weight value : R) (weights values : List R) :
    dot (weight :: weights) (value :: values) = weight * value + dot weights values := by
  simp [dot]

theorem dot_map (coefficient x : κ → R) (columns : List κ) :
    dot (columns.map coefficient) (columns.map x) = (columns.map fun column => coefficient column * x column).sum := by
  simp [dot, List.zipWith_map, List.zipWith_self]

/-- A common factor of the weights is one of the form. -/
theorem dot_scale (factor : R) (weights values : List R) :
    dot (weights.map (factor * ·)) values = factor * dot weights values := by
  induction weights generalizing values with
  | nil => simp
  | cons weight weights inductionHypothesis =>
      cases values with
      | nil => simp [dot]
      | cons value values =>
          rw [List.map_cons, dot_cons, dot_cons, inductionHypothesis]
          ring

theorem dot_replicate_zero (size : ℕ) (values : List R) : dot (List.replicate size 0) values = 0 := by
  induction size generalizing values with
  | zero => rfl
  | succ size inductionHypothesis =>
      cases values with
      | nil => simp [dot]
      | cons value values => rw [List.replicate_succ, dot_cons, inductionHypothesis, zero_mul, zero_add]

/-- A row with one weight only. -/
theorem dot_unit {values : List R} {index : ℕ} {value : R} (isValue : values[index]? = some value) (weight : R) :
    dot ((List.replicate values.length 0).set index weight) values = weight * value := by
  induction values generalizing index with
  | nil => cases isValue
  | cons first rest inductionHypothesis =>
      rw [List.length_cons, List.replicate_succ]
      cases index with
      | zero =>
          cases isValue
          rw [List.set_cons_zero, dot_cons, dot_replicate_zero, add_zero]
      | succ index =>
          rw [List.getElem?_cons_succ] at isValue
          rw [List.set_cons_succ, dot_cons, inductionHypothesis isValue, zero_mul, zero_add]

/-- The row of a form whose terms have distinct names, over columns that include them, has the value of the form. -/
theorem dot_of_terms [DecidableEq κ] {name : τ → κ} {weight : τ → R} {terms : List τ} {columns : List κ}
    {coefficient : κ → R} (distinctTerms : (terms.map name).Nodup) (distinctColumns : columns.Nodup)
    (included : ∀ term ∈ terms, name term ∈ columns) (ofTerm : ∀ term ∈ terms, coefficient (name term) = weight term)
    (ofOther : ∀ column, column ∉ terms.map name → coefficient column = 0) (x : κ → R) :
    dot (columns.map coefficient) (columns.map x) = (terms.map fun term => weight term * x (name term)).sum := by
  have subset : (terms.map name).toFinset ⊆ columns.toFinset := by
    intro column isTerm
    rw [List.mem_toFinset, List.mem_map] at isTerm
    obtain ⟨term, ofTerms, rfl⟩ := isTerm
    exact List.mem_toFinset.mpr (included term ofTerms)
  have outside : ∀ column ∈ columns.toFinset, column ∉ (terms.map name).toFinset →
      coefficient column * x column = 0 := by
    intro column _ notTerm
    rw [ofOther column (fun isTerm => notTerm (List.mem_toFinset.mpr isTerm)), zero_mul]
  calc dot (columns.map coefficient) (columns.map x)
      = (columns.map fun column => coefficient column * x column).sum := dot_map coefficient x columns
    _ = ∑ column ∈ columns.toFinset, coefficient column * x column := (List.sum_toFinset _ distinctColumns).symm
    _ = ∑ column ∈ (terms.map name).toFinset, coefficient column * x column :=
        (Finset.sum_subset subset outside).symm
    _ = ((terms.map name).map fun column => coefficient column * x column).sum := List.sum_toFinset _ distinctTerms
    _ = (terms.map fun term => weight term * x (name term)).sum := by
        rw [List.map_map]
        congr 1
        apply List.map_congr_left
        intro term isTerm
        rw [Function.comp_apply, ofTerm term isTerm]

end LinearForm
