/-
Module: Zigopt.Lib.Raising
Layer: Lib
Purpose: Reasoning about code that may raise, written as `Except` computations. A sequence of steps
  answers exactly if each step does, and it fails exactly with the failure of the first step that fails,
  so a successful or a failed run is taken apart without unfolding the monad.
Main exports: Raising.raiseIf, Raising.bind_eq_ok, Raising.bind_eq_error, Raising.mapM_eq_ok,
  Raising.foldlM_induction
-/
import Mathlib.Data.List.Forall2

namespace Raising

variable {ε α β : Type}

/-- Names may be missing, and they are looked up among others. -/
instance lawfulBEq_name : LawfulBEq (Option String) := inferInstance

/-- A sequence answers exactly where both of its parts do. -/
@[simp] theorem bind_eq_ok {step : Except ε α} {next : α → Except ε β} {answer : β} :
    (step >>= next) = .ok answer ↔ ∃ value, step = .ok value ∧ next value = .ok answer := by
  cases step with
  | ok value => simp [bind, Except.bind]
  | error failure => simp [bind, Except.bind]

/-- A sequence fails in its first part, or in its second after the first has answered. -/
theorem bind_eq_error {step : Except ε α} {next : α → Except ε β} {failure : ε} :
    (step >>= next) = .error failure ↔
      step = .error failure ∨ ∃ value, step = .ok value ∧ next value = .error failure := by
  cases step with
  | ok value => simp [bind, Except.bind]
  | error other => simp [bind, Except.bind]

@[simp] theorem pure_eq_ok {value answer : α} :
    (pure value : Except ε α) = .ok answer ↔ value = answer := by
  simp [pure, Except.pure]

@[simp] theorem pure_ne_error {value : α} {failure : ε} :
    (pure value : Except ε α) ≠ .error failure := by
  simp [pure, Except.pure]

@[simp] theorem ok_bind {value : α} {next : α → Except ε β} :
    ((Except.ok value : Except ε α) >>= next) = next value := rfl

@[simp] theorem error_bind {failure : ε} {next : α → Except ε β} :
    ((Except.error failure : Except ε α) >>= next) = .error failure := rfl

@[simp] theorem map_eq_ok {step : Except ε α} {function : α → β} {answer : β} :
    step.map function = .ok answer ↔ ∃ value, step = .ok value ∧ function value = answer := by
  cases step with
  | ok value => simp [Except.map]
  | error failure => simp [Except.map]

/-- `if condition: raise failure`. -/
def raiseIf (condition : Prop) [Decidable condition] (failure : ε) : Except ε Unit :=
  if condition then .error failure else .ok ()

@[simp] theorem raiseIf_eq_ok {condition : Prop} [Decidable condition] {failure : ε} {answer : Unit} :
    raiseIf condition failure = .ok answer ↔ ¬condition := by
  unfold raiseIf
  split
  · simp_all
  · simp_all

/-- A list goes through a raising map exactly if each of its elements does. -/
theorem mapM_eq_ok {step : α → Except ε β} {items : List α} {answers : List β} :
    items.mapM step = .ok answers ↔ List.Forall₂ (fun item answer => step item = .ok answer) items answers := by
  induction items generalizing answers with
  | nil =>
      cases answers with
      | nil => simp [pure, Except.pure]
      | cons answer rest => simp [pure, Except.pure]
  | cons item items inductionHypothesis =>
      rw [List.mapM_cons, bind_eq_ok]
      constructor
      · rintro ⟨answer, done, rest⟩
        rw [bind_eq_ok] at rest
        obtain ⟨others, doneRest, same⟩ := rest
        rw [pure_eq_ok] at same
        subst same
        exact .cons done (inductionHypothesis.mp doneRest)
      · intro pointwise
        cases pointwise with
        | cons done doneRest =>
            refine ⟨_, done, ?_⟩
            rw [bind_eq_ok]
            exact ⟨_, inductionHypothesis.mpr doneRest, rfl⟩

/-- A raising map that raises on none of the elements is a map. -/
theorem mapM_eq_map {step : α → Except ε β} {answer : α → β} {items : List α}
    (answers : ∀ item ∈ items, step item = .ok (answer item)) : items.mapM step = .ok (items.map answer) := by
  rw [mapM_eq_ok, List.forall₂_map_right_iff, List.forall₂_same]
  exact answers

/-- Where every item has an answer, all of them have one. -/
theorem mapM_of_each {step : α → Except ε β} {related : α → β → Prop} {items : List α}
    (each : ∀ item ∈ items, ∃ answer, step item = .ok answer ∧ related item answer) :
    ∃ answers, items.mapM step = .ok answers ∧ List.Forall₂ related items answers := by
  induction items with
  | nil => exact ⟨[], rfl, .nil⟩
  | cons item items inductionHypothesis =>
      rw [List.forall_mem_cons] at each
      obtain ⟨⟨answer, done, isRelated⟩, eachOther⟩ := each
      obtain ⟨answers, doneOthers, areRelated⟩ := inductionHypothesis eachOther
      refine ⟨answer :: answers, ?_, .cons isRelated areRelated⟩
      rw [List.mapM_cons, done, ok_bind, doneOthers]
      rfl

/-- A raising map that fails does so at one of the elements. -/
theorem mapM_eq_error {step : α → Except ε β} {items : List α} {failure : ε}
    (failed : items.mapM step = .error failure) : ∃ item ∈ items, step item = .error failure := by
  induction items with
  | nil => simp [pure, Except.pure] at failed
  | cons item items inductionHypothesis =>
      rw [List.mapM_cons, bind_eq_error] at failed
      rcases failed with atHead | ⟨answer, -, later⟩
      · exact ⟨item, List.mem_cons_self, atHead⟩
      · rw [bind_eq_error] at later
        rcases later with inTail | ⟨answers, -, impossible⟩
        · obtain ⟨other, member, raised⟩ := inductionHypothesis inTail
          exact ⟨other, List.mem_cons_of_mem _ member, raised⟩
        · exact False.elim (pure_ne_error impossible)

/-- A list goes through a loop of checks exactly if each of its elements passes. -/
theorem forM_eq_ok {step : α → Except ε Unit} {items : List α} :
    items.forM step = .ok () ↔ ∀ item ∈ items, step item = .ok () := by
  induction items with
  | nil => simp [List.forM, pure, Except.pure]
  | cons item items inductionHypothesis =>
      rw [List.forM, bind_eq_ok, List.forall_mem_cons, ← inductionHypothesis]
      constructor
      · rintro ⟨_, passed, rest⟩
        exact ⟨passed, rest⟩
      · rintro ⟨passed, rest⟩
        exact ⟨(), passed, rest⟩

/-- Each answer comes from one of the items. -/
theorem exists_item {related : α → β → Prop} {items : List α} {answers : List β}
    (pointwise : List.Forall₂ related items answers) {answer : β} (member : answer ∈ answers) :
    ∃ item ∈ items, related item answer := by
  induction pointwise with
  | nil => cases member
  | @cons item first items answers relatedFirst _ inductionHypothesis =>
      rcases List.mem_cons.mp member with rfl | later
      · exact ⟨item, List.mem_cons_self, relatedFirst⟩
      · rcases inductionHypothesis later with ⟨other, otherMember, relatedOther⟩
        exact ⟨other, List.mem_cons_of_mem _ otherMember, relatedOther⟩

/-- Each item has one of the answers. -/
theorem exists_answer {related : α → β → Prop} {items : List α} {answers : List β}
    (pointwise : List.Forall₂ related items answers) {item : α} (member : item ∈ items) :
    ∃ answer ∈ answers, related item answer :=
  exists_item pointwise.flip member

/-- What holds before a loop, and is kept by every iteration that does not raise, holds after a loop that
    did not raise; the invariant may speak of the items already done. -/
theorem foldlM_induction {step : β → α → Except ε β} (invariant : List α → β → Prop)
    (preserved : ∀ done state item next, invariant done state → step state item = .ok next →
      invariant (done ++ [item]) next)
    {items : List α} {start final : β} (holds : invariant [] start)
    (finished : items.foldlM step start = .ok final) : invariant items final := by
  suffices general : ∀ (items done : List α) (state : β), invariant done state →
      items.foldlM step state = .ok final → invariant (done ++ items) final by
    simpa using general items [] start holds finished
  intro items
  induction items with
  | nil =>
      intro done state holds finished
      rw [List.foldlM_nil, pure_eq_ok] at finished
      rw [List.append_nil, ← finished]
      exact holds
  | cons item items inductionHypothesis =>
      intro done state holds finished
      rw [List.foldlM_cons, bind_eq_ok] at finished
      rcases finished with ⟨next, stepped, rest⟩
      have after := inductionHypothesis (done ++ [item]) next (preserved done state item next holds stepped) rest
      rw [List.append_assoc, List.singleton_append] at after
      exact after

end Raising
