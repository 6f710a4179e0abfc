/-
Module: Zigopt.Lib.Segments
Layer: Lib
Purpose: Cutting a range at fenceposts, cutting a list at rounded places, and picking values from disjoint segments of
  which each is used up by a value in it.
Main exports: exists_between_fences, slices, flatten_slices, prune, Stratified, countP_stratified
-/
import Mathlib.Data.List.Nodup
import Mathlib.Data.List.Flatten
import Mathlib.Order.Lattice
import Mathlib.Tactic.Common

namespace Segments

/-! ### Fenceposts -/

/-- What lies between the first and the last fencepost lies between two that follow each other. -/
theorem exists_between_fences {α : Type} [LinearOrder α] (fence : ℕ → α) {count : ℕ} {value : α}
    (first : fence 0 ≤ value) (last : value < fence count) :
    ∃ index < count, fence index ≤ value ∧ value < fence (index + 1) := by
  induction count with
  | zero => exact absurd first (not_le.mpr last)
  | succ count inductionHypothesis =>
      by_cases earlier : value < fence count
      · obtain ⟨index, inRange, between⟩ := inductionHypothesis earlier
        exact ⟨index, Nat.lt_succ_of_lt inRange, between⟩
      · exact ⟨count, Nat.lt_succ_self count, not_lt.mp earlier, last⟩

/-! ### Slices -/

section Slices

variable {α : Type}

def slice (items : List α) (first last : ℕ) : List α :=
  (items.drop first).take (last - first)

/-- The slices between the cuts that follow each other. -/
def slices (items : List α) (cut : ℕ → ℕ) (count : ℕ) : List (List α) :=
  (List.range count).map fun index => slice items (cut index) (cut (index + 1))

/-- The slices put together are what they are cut from. -/
theorem flatten_slices (items : List α) {cut : ℕ → ℕ} (increasing : Monotone cut) (fromStart : cut 0 = 0) (count : ℕ) :
    (slices items cut count).flatten = items.take (cut count) := by
  induction count with
  | zero =>
      rw [fromStart, List.take_zero]
      rfl
  | succ count inductionHypothesis =>
      have nextCut : cut (count + 1) = cut count + (cut (count + 1) - cut count) := by
        have inOrder : cut count ≤ cut (count + 1) := increasing (Nat.le_succ count)
        omega
      have oneMore : slices items cut (count + 1) =
          slices items cut count ++ [slice items (cut count) (cut (count + 1))] := by
        rw [slices, List.range_succ, List.map_append]
        rfl
      rw [oneMore, List.flatten_append, inductionHypothesis, List.flatten_singleton, slice]
      conv_rhs => rw [nextCut]
      exact List.take_add.symm

end Slices

/-! ### Picking from segments -/

section Picking

variable {α σ : Type} [DecidableEq σ] [Membership α σ] [∀ (value : α) (segment : σ), Decidable (value ∈ segment)]

/-- No value is in two of the segments. -/
def Disjoint (segments : List σ) : Prop :=
  segments.Pairwise fun first second => ∀ value : α, ¬ (value ∈ first ∧ value ∈ second)

/-- The first segment with the value is used up. -/
def prune (segments : List σ) (value : α) : List σ :=
  match segments.find? fun segment => value ∈ segment with
  | some segment => segments.erase segment
  | none => segments

/-- Each value is in a segment that is not used up by the ones before it. -/
def Stratified : List σ → List α → Prop
  | _, [] => True
  | segments, value :: rest => (∃ segment ∈ segments, value ∈ segment) ∧ Stratified (prune segments value) rest

omit [DecidableEq σ] [∀ (value : α) (segment : σ), Decidable (value ∈ segment)] in
/-- Disjointness does not depend on the order. -/
theorem Disjoint.perm {segments others : List σ} (disjoint : Disjoint (α := α) segments) (same : segments.Perm others) :
    Disjoint (α := α) others := by
  apply (List.Perm.pairwise_iff ?_ same).mp disjoint
  intro first second apart value both
  exact apart value both.symm

theorem prune_eq {segments : List σ} (disjoint : Disjoint (α := α) segments) {segment : σ} {value : α}
    (isSegment : segment ∈ segments) (isIn : value ∈ segment) : prune segments value = segments.erase segment := by
  rw [prune]
  cases found : segments.find? fun other => value ∈ other with
  | none => exact absurd (decide_eq_true isIn) (List.find?_eq_none.mp found segment isSegment)
  | some other =>
      have inOther : value ∈ other := of_decide_eq_true (List.find?_some (p := fun other => decide (value ∈ other)) found)
      have isOther : other ∈ segments := List.mem_of_find?_eq_some found
      have same : other = segment := by
        by_contra different
        have parted := (List.perm_cons_erase isSegment).symm
        have inRest : other ∈ segments.erase segment := (List.mem_erase_of_ne different).mpr isOther
        have apart := List.pairwise_cons.mp (disjoint.perm parted.symm)
        exact apart.1 other inRest value ⟨isIn, inOther⟩
      rw [same]

theorem mem_of_mem_prune {segments : List σ} {segment : σ} {value : α} (member : segment ∈ prune segments value) :
    segment ∈ segments := by
  rw [prune] at member
  cases found : segments.find? fun other => value ∈ other with
  | none =>
      rw [found] at member
      exact member
  | some other =>
      rw [found] at member
      exact List.mem_of_mem_erase member

/-- The values of the picks are in the segments that are there at first. -/
theorem exists_segment_of_stratified {segments : List σ} {values : List α} (stratified : Stratified segments values) :
    ∀ value ∈ values, ∃ segment ∈ segments, value ∈ segment := by
  induction values generalizing segments with
  | nil =>
      intro value member
      cases member
  | cons first rest inductionHypothesis =>
      intro value member
      cases List.mem_cons.mp member with
      | inl isFirst =>
          rw [isFirst]
          exact stratified.1
      | inr isLater =>
          obtain ⟨segment, isLeft, isIn⟩ := inductionHypothesis stratified.2 value isLater
          exact ⟨segment, mem_of_mem_prune isLeft, isIn⟩

/-- As many picks as there are segments come to one in each. -/
theorem countP_stratified {segments : List σ} {values : List α} (disjoint : Disjoint (α := α) segments)
    (stratified : Stratified segments values) (asMany : values.length = segments.length) :
    ∀ segment ∈ segments, values.countP (fun value => value ∈ segment) = 1 := by
  induction values generalizing segments with
  | nil =>
      intro segment member
      rw [List.length_nil] at asMany
      rw [List.eq_nil_of_length_eq_zero asMany.symm] at member
      cases member
  | cons first rest inductionHypothesis =>
      obtain ⟨used, isSegment, isIn⟩ := stratified.1
      have left := stratified.2
      rw [prune_eq disjoint isSegment isIn] at left
      have parted := disjoint.perm (List.perm_cons_erase isSegment)
      have apart := List.pairwise_cons.mp parted
      have lengthLeft : rest.length = (segments.erase used).length := by
        rw [List.length_erase_of_mem isSegment, ← asMany, List.length_cons]
        omega
      have later := inductionHypothesis apart.2 left lengthLeft
      intro segment member
      rw [List.countP_cons]
      by_cases isUsed : segment = used
      · have noneLater : rest.countP (fun value => value ∈ used) = 0 := by
          rw [List.countP_eq_zero]
          intro value isLater inUsed
          obtain ⟨other, isOther, inOther⟩ := exists_segment_of_stratified left value isLater
          exact apart.1 other isOther value ⟨of_decide_eq_true inUsed, inOther⟩
        rw [isUsed, noneLater, if_pos (decide_eq_true isIn)]
      · have isLeft : segment ∈ segments.erase used := (List.mem_erase_of_ne isUsed).mpr member
        have notFirst : ¬ first ∈ segment := fun inSegment => apart.1 segment isLeft first ⟨isIn, inSegment⟩
        rw [later segment isLeft, if_neg (by rw [decide_eq_true_iff]; exact notFirst)]

end Picking

end Segments
