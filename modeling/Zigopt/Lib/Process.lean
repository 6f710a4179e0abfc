/-
Module: Zigopt.Lib.Process
Layer: Lib
Purpose: Code that works on a store statement by statement and may raise in between. What the statements
  before a failure have changed stays changed. One process can be run to its end on its own, or it can be one
  of many that take turns, a statement each.
Main exports: Process, Process.run, Process.run_bind, Process.server, Process.Silent
-/
import Zigopt.Lib.InFlight
import Zigopt.Lib.Raising

/-- A process over stores `σ` with failures `ε`. A statement has a label, changes the store, and what
    follows depends on the store as the statement found it. -/
inductive Process (κ σ ε α : Type) where
  | returned (value : α)
  | raised (failure : ε)
  | statement (label : κ) (change : σ → σ) (next : σ → Process κ σ ε α)

namespace Process

variable {κ σ ε α β : Type}

/-- The statements of the first process, then those of the rest. -/
def bind : Process κ σ ε α → (α → Process κ σ ε β) → Process κ σ ε β
  | .returned value, rest => rest value
  | .raised failure, _ => .raised failure
  | .statement label change next, rest => .statement label change fun store => bind (next store) rest

instance : Monad (Process κ σ ε) where
  pure := .returned
  bind := bind

/-- A statement that only reads. -/
def read (label : κ) (view : σ → α) : Process κ σ ε α :=
  .statement label id fun store => .returned (view store)

/-- A single statement that changes the store. -/
def write (label : κ) (change : σ → σ) : Process κ σ ε Unit :=
  .statement label change fun _ => .returned ()

/-- Code without statements. -/
def ofExcept : Except ε α → Process κ σ ε α
  | .ok value => .returned value
  | .error failure => .raised failure

@[simp] theorem pure_eq (value : α) : (pure value : Process κ σ ε α) = .returned value := rfl

@[simp] theorem returned_bind (value : α) (rest : α → Process κ σ ε β) :
    (Process.returned value : Process κ σ ε α) >>= rest = rest value := rfl

@[simp] theorem raised_bind (failure : ε) (rest : α → Process κ σ ε β) :
    (Process.raised failure : Process κ σ ε α) >>= rest = .raised failure := rfl

@[simp] theorem statement_bind (label : κ) (change : σ → σ) (next : σ → Process κ σ ε α)
    (rest : α → Process κ σ ε β) :
    Process.statement label change next >>= rest =
      .statement label change fun store => next store >>= rest := rfl

/-! ### One process on its own -/

/-- The outcome of a process that nothing interrupts, and the store it leaves. -/
def run : Process κ σ ε α → σ → Except ε α × σ
  | .returned value, store => (.ok value, store)
  | .raised failure, store => (.error failure, store)
  | .statement _ change next, store => run (next store) (change store)

@[simp] theorem run_returned (value : α) (store : σ) :
    (Process.returned value : Process κ σ ε α).run store = (.ok value, store) := rfl

@[simp] theorem run_raised (failure : ε) (store : σ) :
    (Process.raised failure : Process κ σ ε α).run store = (.error failure, store) := rfl

@[simp] theorem run_statement (label : κ) (change : σ → σ) (next : σ → Process κ σ ε α) (store : σ) :
    (Process.statement label change next).run store = (next store).run (change store) := rfl

@[simp] theorem run_read (label : κ) (view : σ → α) (store : σ) :
    (read label view : Process κ σ ε α).run store = (.ok (view store), store) := rfl

@[simp] theorem run_write (label : κ) (change : σ → σ) (store : σ) :
    (write label change : Process κ σ ε Unit).run store = (.ok (), change store) := rfl

@[simp] theorem run_ofExcept (result : Except ε α) (store : σ) :
    (ofExcept result : Process κ σ ε α).run store = (result, store) := by
  cases result <;> rfl

/-- A process that goes on runs from the store that the first part left; a failure ends it there. -/
theorem run_bind (process : Process κ σ ε α) (rest : α → Process κ σ ε β) (store : σ) :
    (process >>= rest).run store =
      match process.run store with
      | (.ok value, after) => (rest value).run after
      | (.error failure, after) => (.error failure, after) := by
  induction process generalizing store with
  | returned value => rfl
  | raised failure => rfl
  | statement label change next inductionHypothesis =>
      exact inductionHypothesis store (change store)

theorem run_bind_ok {process : Process κ σ ε α} {store after : σ} {value : α}
    (done : process.run store = (.ok value, after)) (rest : α → Process κ σ ε β) :
    (process >>= rest).run store = (rest value).run after := by
  rw [run_bind, done]

theorem run_bind_error {process : Process κ σ ε α} {store after : σ} {failure : ε}
    (failed : process.run store = (.error failure, after)) (rest : α → Process κ σ ε β) :
    (process >>= rest).run store = (.error failure, after) := by
  rw [run_bind, failed]

/-- The store that a process leaves when it is cut off after so many statements, or that it leaves at its end
    when it has no more than these. -/
def cutOff : ℕ → Process κ σ ε α → σ → σ
  | count + 1, .statement _ change next, store => cutOff count (next store) (change store)
  | _, _, store => store

@[simp] theorem cutOff_zero (process : Process κ σ ε α) (store : σ) : process.cutOff 0 store = store := by
  cases process <;> rfl

@[simp] theorem cutOff_returned (count : ℕ) (value : α) (store : σ) :
    (Process.returned value : Process κ σ ε α).cutOff count store = store := by
  cases count <;> rfl

@[simp] theorem cutOff_statement (count : ℕ) (label : κ) (change : σ → σ) (next : σ → Process κ σ ε α) (store : σ) :
    (Process.statement label change next).cutOff (count + 1) store = (next store).cutOff count (change store) := rfl

@[simp] theorem cutOff_write (count : ℕ) (label : κ) (change : σ → σ) (store : σ) :
    (write label change : Process κ σ ε Unit).cutOff (count + 1) store = change store := by
  rw [write, cutOff_statement, cutOff_returned]

/-! ### Many processes -/

def Finished : Process κ σ ε α → Prop
  | .statement _ _ _ => False
  | _ => True

/-- The label of the statement that comes next. -/
def label? : Process κ σ ε α → Option κ
  | .statement label _ _ => some label
  | _ => none

/-- One statement; a process without a statement is done. -/
def advance (store : σ) : Process κ σ ε α → σ × Option (Process κ σ ε α)
  | .statement _ change next => (change store, some (next store))
  | _ => (store, none)

/-- Processes that take turns; a call starts one. A process that is interrupted ends without its next
    statement. -/
def server {γ ι : Type} (receive : γ → Process κ σ ε α) (environment : σ → ι → σ) :
    InFlight.Server σ γ (Process κ σ ε α) Bool ι where
  receive := receive
  step := fun store interrupted process => if interrupted then (store, none) else advance store process
  environment := environment

/-! ### What all statements of a process have in common -/

/-- A process that changes nothing. -/
def Silent : Process κ σ ε α → Prop
  | .statement _ change next => change = id ∧ ∀ store, Silent (next store)
  | _ => True

/-- Reading is silent. -/
theorem silent_read (label : κ) (view : σ → α) : Silent (read label view : Process κ σ ε α) :=
  ⟨rfl, fun _ => trivial⟩

/-- A pure result is silent. -/
theorem silent_ofExcept (result : Except ε α) : Silent (ofExcept result : Process κ σ ε α) := by
  cases result <;> trivial

/-- Silent parts make a silent process. -/
theorem Silent.bind {process : Process κ σ ε α} {rest : α → Process κ σ ε β} (silent : Silent process)
    (silentRest : ∀ value, Silent (rest value)) : Silent (process >>= rest) := by
  induction process with
  | returned value => exact silentRest value
  | raised failure => trivial
  | statement label change next inductionHypothesis =>
      exact ⟨silent.1, fun store => inductionHypothesis store (silent.2 store)⟩

/-- A process without writes leaves the store as it was. -/
theorem Silent.run {process : Process κ σ ε α} (silent : Silent process) (store : σ) :
    (process.run store).2 = store := by
  induction process generalizing store with
  | returned value => rfl
  | raised failure => rfl
  | statement label change next inductionHypothesis =>
      rw [run_statement, silent.1]
      exact inductionHypothesis store (silent.2 store) store

theorem Silent.cutOff {process : Process κ σ ε α} (silent : Silent process) (count : ℕ) (store : σ) :
    process.cutOff count store = store := by
  induction process generalizing count store with
  | returned value => exact cutOff_returned count value store
  | raised failure => cases count <;> rfl
  | statement label change next inductionHypothesis =>
      cases count with
      | zero => rfl
      | succ count =>
          rw [cutOff_statement, silent.1]
          exact inductionHypothesis store (silent.2 store) count store

/-! ### What a process ensures -/

/-- From a store that is as it must be before, the process returns a value and leaves a store that are as they
    must be after, or it fails and leaves a store as it may be left then. -/
def Ensures (before : σ → Prop) (process : Process κ σ ε α) (after : α → σ → Prop) (failed : σ → Prop) : Prop :=
  ∀ store, before store →
    match process.run store with
    | (.ok value, left) => after value left
    | (.error _, left) => failed left

section Ensures

variable {before failed : σ → Prop} {after : α → σ → Prop}

/-- The rule of sequencing: what the first part ensures is what the rest starts from. -/
theorem Ensures.bind {process : Process κ σ ε α} {rest : α → Process κ σ ε β} {final : β → σ → Prop}
    (first : Ensures before process after failed) (later : ∀ value, Ensures (after value) (rest value) final failed) :
    Ensures before (process >>= rest) final failed := by
  intro store holds
  have held := first store holds
  rw [run_bind]
  cases outcome : process.run store with
  | mk result left =>
      rw [outcome] at held
      cases result with
      | ok value => exact later value left held
      | error failure => exact held

/-- The rule of returning. -/
theorem ensures_returned {value : α} (holds : ∀ store, before store → after value store) :
    Ensures before (.returned value : Process κ σ ε α) after failed := holds

theorem ensures_raised {failure : ε} (holds : ∀ store, before store → failed store) :
    Ensures before (.raised failure : Process κ σ ε α) after failed := holds

theorem ensures_read {label : κ} {view : σ → α} :
    Ensures before (read label view : Process κ σ ε α) (fun value store => before store ∧ value = view store)
      failed := by
  intro store holds
  exact ⟨holds, rfl⟩

/-- Whatever held before a silent process holds after it. -/
theorem Silent.ensures {process : Process κ σ ε α} (silent : Silent process) :
    Ensures before process (fun _ => before) before := by
  intro store holds
  have unchanged := silent.run store
  cases outcome : process.run store with
  | mk result left =>
      rw [outcome] at unchanged
      cases unchanged
      cases result with
      | ok value => exact holds
      | error failure => exact holds

/-- A loop, with an invariant that speaks of the items it has passed. -/
theorem ensures_forM {body : α → Process κ σ ε Unit} (items : List α) (invariant : List α → σ → Prop)
    (step : ∀ done item rest, items = done ++ item :: rest →
      Ensures (invariant done) (body item) (fun _ => invariant (done ++ [item])) failed) :
    Ensures (invariant []) (items.forM body) (fun _ => invariant items) failed := by
  have from_here : ∀ rest done, items = done ++ rest →
      Ensures (invariant done) (rest.forM body) (fun _ => invariant items) failed := by
    intro rest
    induction rest with
    | nil =>
        intro done isSplit
        rw [List.append_nil] at isSplit
        rw [isSplit]
        exact ensures_returned fun _ holds => holds
    | cons item rest inductionHypothesis =>
        intro done isSplit
        apply (step done item rest isSplit).bind
        intro _
        apply inductionHypothesis
        rw [isSplit, List.append_assoc]
        rfl
  exact from_here items [] rfl

theorem Ensures.imp {process : Process κ σ ε α} {before' failed' : σ → Prop} {after' : α → σ → Prop}
    (ensures : Ensures before process after failed) (stronger : ∀ store, before' store → before store)
    (weaker : ∀ value store, after value store → after' value store)
    (weakerFailed : ∀ store, failed store → failed' store) : Ensures before' process after' failed' := by
  intro store holds
  have held := ensures store (stronger store holds)
  cases outcome : process.run store with
  | mk result left =>
      rw [outcome] at held
      cases result with
      | ok value => exact weaker value left held
      | error failure => exact weakerFailed left held

/-- What holds after a process however it ends. -/
theorem Ensures.run {process : Process κ σ ε α} {good : σ → Prop}
    (ensures : Ensures before process (fun _ => good) good) {store : σ} (holds : before store) :
    good (process.run store).2 := by
  have held := ensures store holds
  cases outcome : process.run store with
  | mk result left =>
      rw [outcome] at held
      cases result with
      | ok value => exact held
      | error failure => exact held

end Ensures

end Process
