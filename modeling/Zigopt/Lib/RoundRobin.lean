/-
Module: Zigopt.Lib.RoundRobin
Layer: Lib
Purpose: Handing out the points of a cycle by counting what is in use: the next point is the one whose
  number is the number of uses. This hands out free points only, as long as there are any, exactly if the
  free points are those that come next in the cycle.
Main exports: RoundRobin.Cycle, RoundRobin.Aligned, RoundRobin.aligned_cons, RoundRobin.exists_violation
-/
import Mathlib.Data.List.Basic
import Mathlib.Data.Nat.Find
import Mathlib.Data.Nat.ModEq

namespace RoundRobin

variable {α : Type}

/-- A numbering that repeats with a period and has no repetition within it. -/
structure Cycle (point : Nat → α) (period : Nat) : Prop where
  positive : 0 < period
  periodic : ∀ index, point (index + period) = point index
  injective : ∀ first < period, ∀ second < period, point first = point second → first = second

namespace Cycle

variable {point : Nat → α} {period : Nat}

theorem point_mod (cycle : Cycle point period) (index : Nat) : point (index % period) = point index := by
  have shifted : ∀ rounds low, point (low + period * rounds) = point low := by
    intro rounds
    induction rounds with
    | zero => exact fun _ => rfl
    | succ rounds inductionHypothesis =>
        intro low
        rw [Nat.mul_succ, ← Nat.add_assoc, cycle.periodic]
        exact inductionHypothesis low
  have split := shifted (index / period) (index % period)
  rw [Nat.mod_add_div] at split
  exact split.symm

theorem point_eq_iff (cycle : Cycle point period) {first second : Nat} :
    point first = point second ↔ first % period = second % period := by
  constructor
  · intro same
    apply cycle.injective _ (Nat.mod_lt _ cycle.positive) _ (Nat.mod_lt _ cycle.positive)
    rw [cycle.point_mod, cycle.point_mod, same]
  · intro same
    rw [← cycle.point_mod first, same, cycle.point_mod]

/-- Of numbers that are less than a period apart, only the same have the same point. -/
theorem eq_of_close (cycle : Cycle point period) {start first second : Nat} (firstClose : first < period)
    (secondClose : second < period) (same : point (start + first) = point (start + second)) : first = second := by
  have congruent : start + first ≡ start + second [MOD period] := cycle.point_eq_iff.mp same
  have cancelled := Nat.ModEq.add_left_cancel' start congruent
  exact Nat.ModEq.eq_of_lt_of_lt cancelled firstClose secondClose

/-- Any period's worth of numbers in a row has every point. -/
theorem exists_close (cycle : Cycle point period) (start index : Nat) :
    ∃ offset < period, point index = point (start + offset) := by
  -- go back from the number to the start, modulo the period
  refine ⟨(index + (period - start % period)) % period, Nat.mod_lt _ cycle.positive, ?_⟩
  have startLow : start % period < period := Nat.mod_lt _ cycle.positive
  rw [cycle.point_eq_iff, Nat.add_mod_mod, ← Nat.mod_add_mod start]
  have whole : start % period + (index + (period - start % period)) = index + period := by omega
  rw [whole, Nat.add_mod_right]

end Cycle

/-- The next point is free, unless every point is in use. -/
def ServesFree (point : Nat → α) (used : List α) : Prop :=
  point used.length ∈ used → ∀ index, point index ∈ used

/-- The free points are the next ones of the cycle. -/
def Aligned (point : Nat → α) (period : Nat) (used : List α) : Prop :=
  ∃ left ≤ period, ∀ index, point index ∉ used ↔ ∃ offset < left, point index = point (used.length + offset)

section Serving

variable {point : Nat → α} {period : Nat} {used : List α}

theorem aligned_nil (cycle : Cycle point period) : Aligned point period [] := by
  refine ⟨period, Nat.le_refl _, ?_⟩
  intro index
  exact iff_of_true List.not_mem_nil (cycle.exists_close 0 index)

/-- Alignment is about how often each point is used. -/
theorem Aligned.perm {others : List α} (aligned : Aligned point period used) (same : used.Perm others) :
    Aligned point period others := by
  rcases aligned with ⟨left, bounded, free⟩
  refine ⟨left, bounded, ?_⟩
  intro index
  rw [← same.mem_iff, ← same.length_eq]
  exact free index

theorem Aligned.servesFree (aligned : Aligned point period used) : ServesFree point used := by
  rcases aligned with ⟨left, _, free⟩
  intro taken
  have noneLeft : left = 0 := by
    by_contra some
    exact (free used.length).mpr ⟨0, Nat.pos_of_ne_zero some, rfl⟩ taken
  intro index
  by_contra isFree
  rcases (free index).mp isFree with ⟨offset, below, _⟩
  rw [noneLeft] at below
  exact Nat.not_lt_zero _ below

/-- Serving the next point leaves the points after it. -/
theorem aligned_cons (cycle : Cycle point period) (aligned : Aligned point period used) :
    Aligned point period (point used.length :: used) := by
  rcases aligned with ⟨left, bounded, free⟩
  cases left with
  | zero =>
      refine ⟨0, Nat.zero_le _, ?_⟩
      intro index
      refine iff_of_false ?_ (fun ⟨_, below, _⟩ => Nat.not_lt_zero _ below)
      intro isFree
      rcases (free index).mp (fun member => isFree (List.mem_cons_of_mem _ member)) with ⟨_, below, _⟩
      exact Nat.not_lt_zero _ below
  | succ left =>
      refine ⟨left, Nat.le_of_succ_le bounded, ?_⟩
      intro index
      rw [List.length_cons, List.mem_cons, not_or, free index]
      constructor
      · rintro ⟨notNext, offset, below, isOffset⟩
        cases offset with
        | zero => exact absurd isOffset notNext
        | succ offset =>
            refine ⟨offset, Nat.lt_of_succ_lt_succ below, ?_⟩
            rw [isOffset]
            congr 1
            omega
      · rintro ⟨offset, below, isOffset⟩
        have shifted : point index = point (used.length + (offset + 1)) := by
          rw [isOffset]
          congr 1
          omega
        refine ⟨?_, offset + 1, Nat.succ_lt_succ below, shifted⟩
        intro isNext
        have same : point (used.length + (offset + 1)) = point (used.length + 0) := shifted.symm.trans isNext
        have close := cycle.eq_of_close (by omega) cycle.positive same
        cases close

/-- What is in use after serving a number of times. -/
def serveTimes (point : Nat → α) : Nat → List α → List α
  | 0, used => used
  | times + 1, used => serveTimes point times (point used.length :: used)

/-- Whether a free point is served does not depend on the order of the used ones. -/
theorem ServesFree.perm {others : List α} (servesFree : ServesFree point used) (same : used.Perm others) :
    ServesFree point others := by
  intro taken index
  rw [← same.length_eq, ← same.mem_iff] at taken
  exact same.mem_iff.mp (servesFree taken index)

theorem serveTimes_perm {others : List α} (same : used.Perm others) (times : Nat) :
    (serveTimes point times used).Perm (serveTimes point times others) := by
  induction times generalizing used others with
  | zero => exact same
  | succ times inductionHypothesis =>
      rw [serveTimes, serveTimes, same.length_eq]
      exact inductionHypothesis (same.cons _)

theorem mem_serveTimes {times : Nat} {used : List α} {item : α} :
    item ∈ serveTimes point times used ↔
      item ∈ used ∨ ∃ offset < times, item = point (used.length + offset) := by
  induction times generalizing used with
  | zero => simp [serveTimes]
  | succ times inductionHypothesis =>
      rw [serveTimes, inductionHypothesis, List.mem_cons, List.length_cons]
      constructor
      · rintro ((isNext | inUse) | ⟨offset, below, isOffset⟩)
        · exact .inr ⟨0, Nat.succ_pos _, isNext⟩
        · exact .inl inUse
        · refine .inr ⟨offset + 1, Nat.succ_lt_succ below, ?_⟩
          rw [isOffset]
          congr 1
          omega
      · rintro (inUse | ⟨offset, below, isOffset⟩)
        · exact .inl (.inr inUse)
        · cases offset with
          | zero => exact .inl (.inl isOffset)
          | succ offset =>
              refine .inr ⟨offset, Nat.lt_of_succ_lt_succ below, ?_⟩
              rw [isOffset]
              congr 1
              omega

theorem length_serveTimes (times : Nat) (used : List α) :
    (serveTimes point times used).length = used.length + times := by
  induction times generalizing used with
  | zero => rfl
  | succ times inductionHypothesis =>
      rw [serveTimes, inductionHypothesis, List.length_cons]
      omega

/-- From where the free points are not the next ones, serving on hands out a point in use while another one is
    free. -/
theorem exists_violation (cycle : Cycle point period) (notAligned : ¬Aligned point period used) :
    ∃ times, ¬ServesFree point (serveTimes point times used) := by
  by_cases allFree : ∀ offset < period, point (used.length + offset) ∉ used
  · exfalso
    apply notAligned
    refine ⟨period, Nat.le_refl _, ?_⟩
    intro index
    rcases cycle.exists_close used.length index with ⟨offset, below, isOffset⟩
    refine iff_of_true ?_ ⟨offset, below, isOffset⟩
    rw [isOffset]
    exact allFree offset below
  · -- serve up to the first of the next points that is in use
    push Not at allFree
    classical
    have first : ∃ times, (times < period ∧ point (used.length + times) ∈ used) ∧
        ∀ offset < times, ¬(offset < period ∧ point (used.length + offset) ∈ used) :=
      ⟨Nat.find allFree, Nat.find_spec allFree, fun offset below => Nat.find_min allFree below⟩
    rcases first with ⟨times, inUse, freeBefore⟩
    refine ⟨times, ?_⟩
    intro servesFree
    apply notAligned
    refine ⟨times, Nat.le_of_lt inUse.1, ?_⟩
    have taken : point (serveTimes point times used).length ∈ serveTimes point times used := by
      rw [length_serveTimes, mem_serveTimes]
      exact .inl inUse.2
    intro index
    constructor
    · intro isFree
      rcases mem_serveTimes.mp (servesFree taken index) with member | offset
      · exact absurd member isFree
      · exact offset
    · rintro ⟨offset, below, isOffset⟩ member
      rw [isOffset] at member
      exact freeBefore offset below ⟨below.trans inUse.1, member⟩

end Serving

end RoundRobin
