/-
Module: Zigopt.Lib.Commit
Layer: Lib
Purpose: Stores with constraints that the store itself enforces. A statement changes the store only if the
  constraints hold after it, and fails otherwise, so that every store that a process ever sees meets them.
Main exports: Process.commit, Process.run_commit, Process.ensures_commit
-/
import Zigopt.Lib.Process

namespace Process

variable {κ τ ε α : Type} {constraints : τ → Prop} [DecidablePred constraints]

/-- A write that is refused if it would violate the constraints. -/
def commit (label : κ) (refusal : ε) (change : τ → τ) : Process κ { content : τ // constraints content } ε Unit :=
  .statement label
    (fun store => if keeps : constraints (change store.1) then ⟨change store.1, keeps⟩ else store)
    fun store => if constraints (change store.1) then .returned () else .raised refusal

/-- A change that keeps the constraints is committed. -/
theorem run_commit (label : κ) (refusal : ε) {change : τ → τ} {store : { content : τ // constraints content }}
    (keeps : constraints (change store.1)) :
    (commit label refusal change).run store = (.ok (), ⟨change store.1, keeps⟩) := by
  rw [commit, run_statement, if_pos keeps, dif_pos keeps, run_returned]

theorem run_commit_refused (label : κ) (refusal : ε) {change : τ → τ}
    {store : { content : τ // constraints content }} (violates : ¬constraints (change store.1)) :
    (commit label refusal change).run store = (.error refusal, store) := by
  rw [commit, run_statement, if_neg violates, dif_neg violates, run_raised]

section Ensures

variable {before failed : { content : τ // constraints content } → Prop}

/-- A write, which may be refused. -/
theorem ensures_commit {label : κ} {refusal : ε} {change : τ → τ}
    {after : { content : τ // constraints content } → Prop}
    (written : ∀ store, before store → ∀ keeps : constraints (change store.1), after ⟨change store.1, keeps⟩)
    (refused : ∀ store, before store → ¬constraints (change store.1) → failed store) :
    Ensures before (commit label refusal change) (fun _ => after) failed := by
  intro store holds
  by_cases keeps : constraints (change store.1)
  · rw [run_commit label refusal keeps]
    exact written store holds keeps
  · rw [run_commit_refused label refusal keeps]
    exact refused store holds keeps

/-- A write that no constraint stands against. -/
theorem ensures_commit_of {label : κ} {refusal : ε} {change : τ → τ}
    {after : { content : τ // constraints content } → Prop}
    (passes : ∀ store, before store → constraints (change store.1))
    (written : ∀ store, before store → ∀ keeps : constraints (change store.1), after ⟨change store.1, keeps⟩) :
    Ensures before (commit label refusal change) (fun _ => after) failed :=
  ensures_commit written fun store holds violates => absurd (passes store holds) violates

end Ensures

end Process
