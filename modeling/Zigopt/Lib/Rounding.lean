/-
Module: Zigopt.Lib.Rounding
Layer: Lib
Purpose: Rounding a rational number to an integer, half to even.
Main exports: Rounding.roundHalfEven, Rounding.roundHalfEven_mono
-/
import Mathlib.Algebra.Order.Floor.Ring
import Mathlib.Data.Rat.Floor
import Mathlib.Tactic.Linarith

namespace Rounding

/-- The nearest integer, and of two nearest ones the even one. -/
def roundHalfEven (number : ℚ) : ℤ :=
  if number - ⌊number⌋ < 1 / 2 then ⌊number⌋
  else if 1 / 2 < number - ⌊number⌋ then ⌊number⌋ + 1
  else if ⌊number⌋ % 2 = 0 then ⌊number⌋
  else ⌊number⌋ + 1

@[simp] theorem roundHalfEven_intCast (number : ℤ) : roundHalfEven number = number := by
  have noRest : (number : ℚ) - (number : ℚ) < 1 / 2 := by
    rw [sub_self]
    exact one_half_pos
  rw [roundHalfEven, Int.floor_intCast, if_pos noRest]

@[simp] theorem roundHalfEven_natCast (number : ℕ) : roundHalfEven number = number := by
  rw [← Int.cast_natCast, roundHalfEven_intCast]

theorem roundHalfEven_eq (number : ℚ) : roundHalfEven number = ⌊number⌋ ∨ roundHalfEven number = ⌊number⌋ + 1 := by
  rw [roundHalfEven]
  split_ifs <;> simp

/-- Rounding keeps the order of two numbers. -/
theorem roundHalfEven_mono {first second : ℚ} (inOrder : first ≤ second) :
    roundHalfEven first ≤ roundHalfEven second := by
  rcases (Int.floor_le_floor inOrder).lt_or_eq with floors | floors
  · have upper : roundHalfEven first ≤ ⌊first⌋ + 1 := by
      rcases roundHalfEven_eq first with isFloor | isNext <;> omega
    have lower : ⌊second⌋ ≤ roundHalfEven second := by
      rcases roundHalfEven_eq second with isFloor | isNext <;> omega
    omega
  · rw [roundHalfEven, roundHalfEven, floors]
    split_ifs <;> first | omega | linarith

end Rounding
