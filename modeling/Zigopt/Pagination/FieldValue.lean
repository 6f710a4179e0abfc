/-
Module: Zigopt.Pagination.FieldValue
Layer: Pagination
Purpose: The values a pager sorts by and how Python compares them. A pager key is a tuple of field
  values; before it is compared every `None` in it is replaced by the float infinity
  (`Pager._sanitize_nones`). Numbers and booleans compare with each other by value, strings and
  datetimes only with their own kind, and any other comparison raises `TypeError`.
Main exports: FieldValue, SortValue, FieldValue.sanitize, tupleLt, Comparable, Key.pyEq
-/
import Mathlib.Data.List.Lex
import Mathlib.Data.Rat.Defs
import Mathlib.Data.String.Basic
import Mathlib.Data.Sum.Order
import Mathlib.Order.WithBot
import Mathlib.Algebra.Order.Ring.Rat
import Mathlib.Order.Lex

namespace Zigopt.Pagination

/-- A Python float as an exact number. NaN is left out: no order, and hence no sorted list, is
    specified for it. -/
inductive PyFloat where
  | finite (value : ℚ)
  | inf
  | negInf
deriving DecidableEq, Repr

/-- What a value getter of a pager may return for an item. A datetime is an aware one, given as the
    microseconds since the epoch. -/
inductive FieldValue where
  | null
  | int (value : Int)
  | float (value : PyFloat)
  | str (value : String)
  | bool (value : Bool)
  | datetime (microseconds : Int)
deriving DecidableEq, Repr

/-- The numbers Python compares: ints, booleans and finite floats are rationals, and there are the
    two infinities. -/
abbrev Number := WithBot (WithTop ℚ)

/-- A field value as far as comparison sees it. -/
inductive SortValue where
  | number (value : Number)
  | str (value : String)
  | datetime (microseconds : Int)
deriving DecidableEq

namespace SortValue

/-- The kinds side by side. Only comparisons within a kind are ever asked of Python; the order
    between the kinds is there to have one order on all values. -/
def rank : SortValue → Number ⊕ₗ (String ⊕ₗ Int)
  | .number value => Sum.inlₗ value
  | .str value => Sum.inrₗ (Sum.inlₗ value)
  | .datetime microseconds => Sum.inrₗ (Sum.inrₗ microseconds)

theorem rank_injective : Function.Injective rank := by
  intro first second same
  cases first <;> cases second <;> simp_all [rank, Sum.inlₗ, Sum.inrₗ]

instance : LinearOrder SortValue := LinearOrder.lift' rank rank_injective

/-- Python's `<` on two unequal sanitized values; `none` is the `TypeError` of mixed kinds. -/
def lt? : SortValue → SortValue → Option Bool
  | .number first, .number second => some (first < second)
  | .str first, .str second => some (first < second)
  | .datetime first, .datetime second => some (first < second)
  | _, _ => none

theorem number_lt_number (first second : Number) :
    SortValue.number first < SortValue.number second ↔ first < second :=
  Sum.Lex.inl_lt_inl_iff

/-- Where Python compares two values it does so by the order above. -/
theorem lt?_eq_some {first second : SortValue} {answer : Bool}
    (compared : lt? first second = some answer) : answer = decide (first < second) := by
  have str (a b : String) : (SortValue.str a < SortValue.str b) ↔ a < b :=
    Sum.Lex.inr_lt_inr_iff.trans Sum.Lex.inl_lt_inl_iff
  have datetime (a b : Int) : (SortValue.datetime a < SortValue.datetime b) ↔ a < b :=
    Sum.Lex.inr_lt_inr_iff.trans Sum.Lex.inr_lt_inr_iff
  cases first <;> cases second <;> simp_all [lt?, number_lt_number]

end SortValue

/-- `coalesce(v, INF)`, together with reading the value as a comparison does. -/
def FieldValue.sanitize : FieldValue → SortValue
  | .null => .number ⊤
  | .int value => .number ((value : ℚ) : WithTop ℚ)
  | .float (.finite value) => .number (value : WithTop ℚ)
  | .float .inf => .number ⊤
  | .float .negInf => .number ⊥
  | .str value => .str value
  | .bool value => .number (((if value then 1 else 0 : ℚ)) : WithTop ℚ)
  | .datetime microseconds => .datetime microseconds

/-- The tuple of the pager's value getters. -/
abbrev Key := List FieldValue

/-- `_sanitize_nones`. -/
def sanitizeNones (key : Key) : List SortValue := key.map FieldValue.sanitize

/-- Python's `==` on two field values, before sanitizing: `None` equals only itself. -/
def FieldValue.pyEq (first second : FieldValue) : Prop :=
  (first = .null ↔ second = .null) ∧ first.sanitize = second.sanitize

/-- Python's `==` on two key tuples. -/
def Key.pyEq (first second : Key) : Prop := List.Forall₂ FieldValue.pyEq first second

/-- Python's tuple `<`: the first position where the tuples differ decides, and a tuple that ends
    first is the smaller one. -/
def tupleLt : List SortValue → List SortValue → Option Bool
  | [], [] => some false
  | [], _ :: _ => some true
  | _ :: _, [] => some false
  | first :: firsts, second :: seconds =>
      if first = second then tupleLt firsts seconds else first.lt? second

/-- Python can compare the two tuples without raising `TypeError`. -/
def Comparable (first second : List SortValue) : Prop := (tupleLt first second).isSome

instance (first second : List SortValue) : Decidable (Comparable first second) :=
  inferInstanceAs (Decidable ((tupleLt first second).isSome = true))

/-- A tuple comparison that Python carries out agrees with the lexicographic order. -/
theorem tupleLt_eq_some {first second : List SortValue} {answer : Bool}
    (compared : tupleLt first second = some answer) : answer = decide (first < second) := by
  induction first generalizing second with
  | nil => cases second <;> simp_all [tupleLt]
  | cons head tail inductionHypothesis =>
      cases second with
      | nil => simp_all [tupleLt]
      | cons other rest =>
          rw [tupleLt] at compared
          split at compared
          next same =>
              subst same
              rw [inductionHypothesis compared]
              simp
          next different =>
              rw [SortValue.lt?_eq_some compared]
              simp [List.cons_lt_cons_iff, different]

theorem Comparable.tupleLt_eq {first second : List SortValue} (comparable : Comparable first second) :
    tupleLt first second = some (decide (first < second)) := by
  obtain ⟨answer, compared⟩ := Option.isSome_iff_exists.mp comparable
  rw [compared, tupleLt_eq_some compared]

/-- Two values are compared without an error exactly if their kinds are the same. -/
theorem SortValue.lt?_isSome_comm (first second : SortValue) :
    (first.lt? second).isSome = (second.lt? first).isSome := by
  cases first <;> cases second <;> rfl

/-- Which of two tuples stands on the left does not matter for whether Python can compare them. -/
theorem Comparable.symm {first second : List SortValue} (comparable : Comparable first second) :
    Comparable second first := by
  induction first generalizing second with
  | nil => cases second <;> simp [Comparable, tupleLt]
  | cons head tail inductionHypothesis =>
      cases second with
      | nil => simp [Comparable, tupleLt]
      | cons other rest =>
          unfold Comparable at comparable inductionHypothesis ⊢
          rw [tupleLt] at comparable ⊢
          by_cases same : head = other
          · subst same
            simp only [if_true] at comparable ⊢
            exact inductionHypothesis comparable
          · rw [if_neg same] at comparable
            rw [if_neg (Ne.symm same), SortValue.lt?_isSome_comm]
            exact comparable

end Zigopt.Pagination
