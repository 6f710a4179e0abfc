/-
Module: Zigopt.Lib.Trace
Layer: Lib
Purpose: Finite runs of a machine that takes an input in each step, written as the list of the inputs
  with the states they lead to. What a step preserves under an exact condition is preserved by a run
  exactly if each of its steps meets the condition.
Main exports: Trace.Every, Trace.every_iff, Trace.every_state_iff, Trace.every_pairwise
-/
import Mathlib.Data.List.Basic
import Mathlib.Data.List.Pairwise

namespace Trace

variable {σ ι : Type}

/-- Every step of the run has the property: of the state before it, its input, and the state after it. -/
def Every (property : σ → ι → σ → Prop) : σ → List (ι × σ) → Prop
  | _, [] => True
  | before, (input, after) :: rest => property before input after ∧ Every property after rest

instance decidableEvery {property : σ → ι → σ → Prop} [∀ before input after, Decidable (property before input after)] :
    (start : σ) → (steps : List (ι × σ)) → Decidable (Every property start steps)
  | _, [] => instDecidableTrue
  | _, (_, after) :: rest =>
      have := @decidableEvery property _ after rest
      instDecidableAnd

/-- The states that a run reaches, the first one included. -/
def reached (start : σ) (steps : List (ι × σ)) : List σ :=
  start :: steps.map Prod.snd

/-- The run of a list of inputs, where an input leads to one state. -/
def play (next : σ → ι → σ) : σ → List ι → List (ι × σ)
  | _, [] => []
  | before, input :: rest => (input, next before input) :: play next (next before input) rest

/-- What is played follows the function. -/
theorem every_play (next : σ → ι → σ) (start : σ) (inputs : List ι) :
    Every (fun before input after => after = next before input) start (play next start inputs) := by
  induction inputs generalizing start with
  | nil => trivial
  | cons input rest inductionHypothesis => exact ⟨rfl, inductionHypothesis (next start input)⟩

/-- If a step that is taken from a good state has the property exactly under the condition, and leads to
    a good state again when it has the property, then the steps of a run have the property exactly if they
    meet the condition. -/
theorem every_iff {accepted : σ → ι → σ → Prop} (property condition : σ → ι → σ → Prop) (good : σ → Prop)
    (exact : ∀ before input after, good before → accepted before input after →
      (property before input after ↔ condition before input after))
    (keeps : ∀ before input after, good before → accepted before input after →
      property before input after → good after)
    {start : σ} {steps : List (ι × σ)} (startGood : good start) (run : Every accepted start steps) :
    Every property start steps ↔ Every condition start steps := by
  induction steps generalizing start with
  | nil => exact Iff.rfl
  | cons step rest inductionHypothesis =>
      rcases step with ⟨input, after⟩
      rcases run with ⟨first, later⟩
      have here := exact start input after startGood first
      constructor
      · rintro ⟨holds, holdsLater⟩
        exact ⟨here.mp holds, (inductionHypothesis (keeps _ _ _ startGood first holds) later).mp holdsLater⟩
      · rintro ⟨met, metLater⟩
        have holds := here.mpr met
        exact ⟨holds, (inductionHypothesis (keeps _ _ _ startGood first holds) later).mpr metLater⟩

theorem Every.imp {property other : σ → ι → σ → Prop}
    (implies : ∀ before input after, property before input after → other before input after)
    {start : σ} {steps : List (ι × σ)} (run : Every property start steps) : Every other start steps := by
  induction steps generalizing start with
  | nil => trivial
  | cons step rest inductionHypothesis =>
      rcases step with ⟨input, after⟩
      rcases run with ⟨first, later⟩
      exact ⟨implies _ _ _ first, inductionHypothesis later⟩

/-- Two properties of the steps may be proved apart. -/
theorem every_and {first second : σ → ι → σ → Prop} {start : σ} {steps : List (ι × σ)} :
    Every (fun before input after => first before input after ∧ second before input after) start steps ↔
      Every first start steps ∧ Every second start steps := by
  induction steps generalizing start with
  | nil => simp [Every]
  | cons step rest inductionHypothesis =>
      rcases step with ⟨input, after⟩
      rw [Every, Every, Every, inductionHypothesis]
      exact and_and_and_comm

theorem every_step_iff {property : ι → σ → Prop} {start : σ} {steps : List (ι × σ)} :
    Every (fun _ input after => property input after) start steps ↔
      ∀ step ∈ steps, property step.1 step.2 := by
  induction steps generalizing start with
  | nil => simp [Every]
  | cons step rest inductionHypothesis =>
      rcases step with ⟨input, after⟩
      rw [Every, inductionHypothesis, List.forall_mem_cons]

/-- A property of the states alone may be asked of the states that were reached. -/
theorem every_state_iff {property : σ → Prop} {start : σ} {steps : List (ι × σ)} :
    Every (fun _ _ after => property after) start steps ↔ ∀ state ∈ steps.map Prod.snd, property state := by
  rw [every_step_iff, List.forall_mem_map]

/-- What holds at the start and is kept by every step holds in every state that a run reaches. -/
theorem every_invariant {accepted : σ → ι → σ → Prop} {good : σ → Prop}
    (keeps : ∀ before input after, good before → accepted before input after → good after)
    {start : σ} {steps : List (ι × σ)} (startGood : good start) (run : Every accepted start steps) :
    ∀ state ∈ reached start steps, good state := by
  induction steps generalizing start with
  | nil =>
      intro state member
      rw [List.mem_singleton.mp member]
      exact startGood
  | cons step rest inductionHypothesis =>
      rcases step with ⟨input, after⟩
      rcases run with ⟨first, later⟩
      exact List.forall_mem_cons.mpr ⟨startGood, inductionHypothesis (keeps _ _ _ startGood first) later⟩

/-- What a step from a good state has, every step of a run has, if good states lead to good ones. -/
theorem every_of_invariant {accepted property : σ → ι → σ → Prop} {good : σ → Prop}
    (holds : ∀ before input after, good before → accepted before input after → property before input after)
    (keeps : ∀ before input after, good before → accepted before input after → good after)
    {start : σ} {steps : List (ι × σ)} (startGood : good start) (run : Every accepted start steps) :
    Every property start steps := by
  induction steps generalizing start with
  | nil => trivial
  | cons step rest inductionHypothesis =>
      rcases step with ⟨input, after⟩
      rcases run with ⟨first, later⟩
      exact ⟨holds _ _ _ startGood first, inductionHypothesis (keeps _ _ _ startGood first) later⟩

/-- A transitive relation that holds over every step holds between any two states of a run. -/
theorem every_pairwise {related : σ → σ → Prop}
    (transitive : ∀ first second third, related first second → related second third → related first third)
    {start : σ} {steps : List (ι × σ)} (run : Every (fun before _ after => related before after) start steps) :
    (reached start steps).Pairwise related := by
  induction steps generalizing start with
  | nil => exact List.pairwise_singleton _ _
  | cons step rest inductionHypothesis =>
      rcases step with ⟨input, after⟩
      rcases run with ⟨first, later⟩
      have pairwiseLater := inductionHypothesis later
      apply List.pairwise_cons.mpr
      refine ⟨?_, pairwiseLater⟩
      intro state member
      rcases List.mem_cons.mp member with rfl | inRest
      · exact first
      · exact transitive _ _ _ first ((List.pairwise_cons.mp pairwiseLater).1 state inRest)

end Trace
