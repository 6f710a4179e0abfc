/-
Module: Zigopt.Lib.Comparison
Layer: Lib
Purpose: The comparison operators over what an order says of two values, floating point numbers with their NaN, and
  reading a list at a position that may count from its end.
Main exports: Operator, Operator.holds, FloatValue, FloatValue.order, FloatValue.order_eq_iff, orderOf,
  atIndex
-/
import Mathlib.Data.Rat.Defs
import Mathlib.Algebra.Order.Ring.Rat

namespace Comparison

/-- The six comparisons of two values. -/
inductive Operator where
  | eq
  | ne
  | lt
  | le
  | gt
  | ge
  deriving DecidableEq, Repr

namespace Operator

def isOrder : Operator → Bool
  | .eq | .ne => false
  | _ => true

/-- The answer, from the order of the two sides; two sides may have none. -/
def holds : Operator → Option Ordering → Bool
  | .eq, order => order = some .eq
  | .ne, order => order ≠ some .eq
  | .lt, order => order = some .lt
  | .le, order => order = some .lt || order = some .eq
  | .gt, order => order = some .gt
  | .ge, order => order = some .gt || order = some .eq

end Operator

/-- The three-way comparison by a decidable linear order. -/
def orderOf {α : Type} [DecidableEq α] [LT α] [DecidableLT α] (first second : α) : Ordering :=
  if first < second then .lt else if first = second then .eq else .gt

/-- A floating point number. -/
inductive FloatValue where
  | finite (value : ℚ)
  | nan
  | infinity (negative : Bool)
  deriving DecidableEq, Repr

namespace FloatValue

/-- NaN is in no order to any number. -/
def order : FloatValue → FloatValue → Option Ordering
  | .finite first, .finite second => some (orderOf first second)
  | .nan, _ | _, .nan => none
  | .infinity first, .infinity second => some (if first = second then .eq else if first then .lt else .gt)
  | .infinity negative, .finite _ => some (if negative then .lt else .gt)
  | .finite _, .infinity negative => some (if negative then .gt else .lt)

/-- Only equal numbers are compared as equal, and NaN is not. -/
theorem order_eq_iff {first second : FloatValue} :
    first.order second = some .eq ↔ first = second ∧ second ≠ .nan := by
  cases first with
  | finite first =>
      cases second with
      | finite second =>
          unfold order orderOf
          rcases lt_trichotomy first second with less | same | greater
          · simp [less, less.ne]
          · simp [same]
          · simp [greater.not_gt, greater.ne']
      | nan => simp [order]
      | infinity negative => cases negative with
        | false => simp [order]
        | true => simp [order]
  | nan => cases second <;> simp [order]
  | infinity negative =>
      cases second with
      | finite second => cases negative with
        | false => simp [order]
        | true => simp [order]
      | nan => simp [order]
      | infinity other =>
          cases negative with
          | false => cases other with
            | false => simp [order]
            | true => simp [order]
          | true => cases other with
            | false => simp [order]
            | true => simp [order]

end FloatValue

/-- A position of a list, from the end if it is negative. -/
def atIndex {α : Type} (items : List α) (position : ℤ) : Option α :=
  if 0 ≤ position then items[position.toNat]?
  else if -position ≤ items.length then items[(items.length + position).toNat]?
  else none

theorem atIndex_map {α β : Type} (render : α → β) (items : List α) (position : ℤ) :
    atIndex (items.map render) position = (atIndex items position).map render := by
  unfold atIndex
  simp only [List.length_map, List.getElem?_map]
  split
  · rfl
  · split
    · rfl
    · rfl

theorem mem_of_atIndex {α : Type} {items : List α} {position : ℤ} {item : α}
    (found : atIndex items position = some item) : item ∈ items := by
  unfold atIndex at found
  split at found
  · exact List.mem_of_getElem? found
  · split at found
    · exact List.mem_of_getElem? found
    · cases found

theorem atIndex_nil {α : Type} (position : ℤ) : atIndex ([] : List α) position = none := by
  cases reached : atIndex ([] : List α) position with
  | none => rfl
  | some item => cases mem_of_atIndex reached

end Comparison
