/-
Module: Zigopt.Web.Poller
Layer: Web
Purpose: A poller (`net/poller.js`) as a machine whose events come in any order: calls of its methods, the timer of the
  throttled poll, deferred calls and answers of polls. It is silent when it should be in just those runs in which no
  error is answered while it is stopped or by a poll from before a stop, and no such poll brings new data.
Main exports: PollerSystem, PollerEvent, step, Silent, AnswersIgnored, poller_silent_iff
-/
import Zigopt.Lib.Trace

namespace Zigopt.Web.Polling

variable {α ε : Type}

/-! ### The poller -/

/-- The fields of a `Poller`; data are null or a value. The last three are what `_.once`, `_.throttle` and `_.defer`
    remember: whether `startOnce` has run, whether a poll waits for the timer, and how many calls are deferred. -/
structure Poller (α : Type) where
  lastData : Option α := none
  isPolling : Bool := false
  stopped : Bool := true
  paused : Bool := false
  startedOnce : Bool := false
  timer : Bool := false
  deferred : ℕ := 0
deriving DecidableEq, Repr

/-- A poll that has no answer yet, with the number of stops before it was started. -/
structure Poll where
  stops : ℕ
deriving DecidableEq, Repr

/-- The poller, its polls, and what the statements below ask for: the number of stops, and the data that `onChange` was
    called with last. -/
structure PollerSystem (α : Type) where
  poller : Poller α := {}
  inFlight : List Poll := []
  stops : ℕ := 0
  delivered : Option (Option α) := none
deriving DecidableEq, Repr

/-- Calls of the methods, with what the clock says to `_.throttle` if they come to poll; the timer of `_.throttle`; a
    deferred call; and the answers of the poll in this position. -/
inductive PollerEvent (α ε : Type) where
  | start (elapsed : Bool)
  | startOnce (elapsed : Bool)
  | stop
  | setPaused (paused : Bool) (elapsed : Bool)
  | timer
  | deferred (elapsed : Bool)
  | success (position : ℕ) (newData : Option α)
  | error (position : ℕ) (failure : ε)

/-- The callbacks that the poller calls. -/
inductive Callback (α ε : Type) where
  | onChange (newData : Option α)
  | error (failure : ε)
deriving DecidableEq

/-- The function that is throttled. -/
def poll (system : PollerSystem α) : PollerSystem α :=
  if system.poller.isPolling = false ∧ system.poller.stopped = false then
    { system with
      poller := { system.poller with isPolling := true }
      inFlight := system.inFlight ++ [⟨system.stops⟩] }
  else
    system

/-- `_.throttle` runs at once if the wait time is over, and takes back its timer; otherwise it sets one. -/
def doPoll (system : PollerSystem α) (elapsed : Bool) : PollerSystem α :=
  if elapsed then
    poll { system with poller := { system.poller with timer := false } }
  else
    { system with poller := { system.poller with timer := true } }

def nextPoll (system : PollerSystem α) (elapsed : Bool) : PollerSystem α :=
  if system.poller.stopped = false ∧ system.poller.paused = false then doPoll system elapsed else system

def start (system : PollerSystem α) (elapsed : Bool) : PollerSystem α :=
  nextPoll { system with poller := { system.poller with stopped := false } } elapsed

def stop (system : PollerSystem α) : PollerSystem α :=
  { system with
    poller := { system.poller with stopped := true }
    stops := system.stops + 1 }

def setPaused (system : PollerSystem α) (paused elapsed : Bool) : PollerSystem α :=
  let next := { system with poller := { system.poller with paused := paused } }
  if paused then next else nextPoll next elapsed

def pollSuccess [DecidableEq α] (system : PollerSystem α) (newData : Option α) : PollerSystem α × List (Callback α ε) :=
  let idle := { system with poller := { system.poller with isPolling := false } }
  if idle.poller.stopped = false then
    let changed := newData ≠ idle.poller.lastData
    ({ idle with
        poller := { idle.poller with lastData := newData, deferred := idle.poller.deferred + 1 }
        delivered := if changed then some newData else idle.delivered },
      if changed then [.onChange newData] else [])
  else
    (idle, [])

/-- The callback `error` may be left out. -/
def pollError (hasError : Bool) (system : PollerSystem α) (failure : ε) : PollerSystem α × List (Callback α ε) :=
  ({ system with poller := { system.poller with isPolling := false, deferred := system.poller.deferred + 1 } },
    if hasError then [.error failure] else [])

/-- What an event leads to, with the callbacks that are called; none if there is nothing that could cause it. -/
def step [DecidableEq α] (hasError : Bool) (system : PollerSystem α) :
    PollerEvent α ε → Option (PollerSystem α × List (Callback α ε))
  | .start elapsed => some (start system elapsed, [])
  | .startOnce elapsed =>
      if system.poller.startedOnce then
        some (system, [])
      else
        some (start { system with poller := { system.poller with startedOnce := true } } elapsed, [])
  | .stop => some (stop system, [])
  | .setPaused paused elapsed => some (setPaused system paused elapsed, [])
  | .timer =>
      if system.poller.timer then
        some (poll { system with poller := { system.poller with timer := false } }, [])
      else
        none
  | .deferred elapsed =>
      if system.poller.deferred = 0 then
        none
      else
        some (nextPoll { system with poller := { system.poller with deferred := system.poller.deferred - 1 } } elapsed, [])
  | .success position newData =>
      if position < system.inFlight.length then
        some (pollSuccess { system with inFlight := system.inFlight.eraseIdx position } newData)
      else
        none
  | .error position failure =>
      if position < system.inFlight.length then
        some (pollError hasError { system with inFlight := system.inFlight.eraseIdx position } failure)
      else
        none

/-! ### Silence after a stop -/

/-- A run of the poller: events with the systems they lead to. -/
def Runs [DecidableEq α] (hasError : Bool) : PollerSystem α → List (PollerEvent α ε × PollerSystem α) → Prop :=
  Trace.Every fun before event after => ∃ callbacks, step hasError before event = some (after, callbacks)

/-- The poll that an event answers. -/
def answered (system : PollerSystem α) : PollerEvent α ε → Option Poll
  | .success position _ => system.inFlight[position]?
  | .error position _ => system.inFlight[position]?
  | _ => none

/-- At most one poll is in flight; nothing is called while the poller is stopped, or by a poll from before a stop; and
    data that are delivered are not those delivered before. -/
structure Silent [DecidableEq α] (hasError : Bool) (before : PollerSystem α) (event : PollerEvent α ε)
    (after : PollerSystem α) : Prop where
  single : before.inFlight.length ≤ 1 ∧ after.inFlight.length ≤ 1
  stopped : before.poller.stopped = true → ∀ callbacks, step hasError before event = some (after, callbacks) →
    callbacks = []
  ignored : ∀ poll, answered before event = some poll → poll.stops < before.stops →
    ∀ callbacks, step hasError before event = some (after, callbacks) → callbacks = []
  changed : ∀ callbacks, step hasError before event = some (after, callbacks) →
    ∀ newData, Callback.onChange newData ∈ callbacks → before.delivered ≠ some newData

/-- No error is answered while the poller is stopped or by a poll from before a stop, and such a poll brings no new data
    to a poller that runs again. -/
def AnswersIgnored (hasError : Bool) (before : PollerSystem α) (event : PollerEvent α ε) (_after : PollerSystem α) :
    Prop :=
  match event with
  | .success position newData => ∀ poll, before.inFlight[position]? = some poll → poll.stops < before.stops →
      before.poller.stopped = false → newData = before.poller.lastData
  | .error position _ => ∀ poll, before.inFlight[position]? = some poll → hasError = true →
      before.poller.stopped = false ∧ poll.stops = before.stops
  | _ => True

/-! ### What a run keeps -/

/-- The poller knows of its poll, there is one at most, and it remembers what was delivered. -/
structure Consistent (system : PollerSystem α) : Prop where
  polling : system.inFlight = [] ∧ system.poller.isPolling = false ∨
    ∃ poll, system.inFlight = [poll] ∧ poll.stops ≤ system.stops ∧ system.poller.isPolling = true
  delivered : ∀ data, system.delivered = some data → data = system.poller.lastData

section Steps

variable {hasError : Bool} {system : PollerSystem α}

theorem consistent_poll (consistent : Consistent system) : Consistent (poll system) := by
  unfold poll
  split
  · rename_i free
    rcases consistent.polling with ⟨empty, _⟩ | ⟨_, _, _, busy⟩
    · exact ⟨Or.inr ⟨⟨system.stops⟩, by simp [empty], Nat.le_refl _, rfl⟩, consistent.delivered⟩
    · rw [free.1] at busy
      cases busy
  · exact consistent

theorem consistent_nextPoll (consistent : Consistent system) (elapsed : Bool) :
    Consistent (nextPoll system elapsed) := by
  unfold nextPoll doPoll
  split
  · cases elapsed with
    | true => exact consistent_poll ⟨consistent.polling, consistent.delivered⟩
    | false => exact ⟨consistent.polling, consistent.delivered⟩
  · exact consistent

theorem consistent_start (consistent : Consistent system) (elapsed : Bool) : Consistent (start system elapsed) := by
  have running : Consistent { system with poller := { system.poller with stopped := false } } :=
    ⟨consistent.polling, consistent.delivered⟩
  exact consistent_nextPoll running elapsed

theorem consistent_setPaused (consistent : Consistent system) (paused elapsed : Bool) :
    Consistent (setPaused system paused elapsed) := by
  have next : Consistent { system with poller := { system.poller with paused := paused } } :=
    ⟨consistent.polling, consistent.delivered⟩
  cases paused with
  | true => exact next
  | false => exact consistent_nextPoll next elapsed

theorem consistent_stop (consistent : Consistent system) : Consistent (stop system) := by
  refine ⟨?_, consistent.delivered⟩
  rcases consistent.polling with free | ⟨poll, single, earlier, busy⟩
  · exact Or.inl free
  · exact Or.inr ⟨poll, single, Nat.le_succ_of_le earlier, busy⟩

/-- The answer that comes is that of the one poll in flight. -/
theorem Consistent.answer (consistent : Consistent system) {position : ℕ} (there : position < system.inFlight.length) :
    ∃ poll, system.inFlight[position]? = some poll ∧ poll.stops ≤ system.stops ∧
      system.inFlight.eraseIdx position = [] := by
  rcases consistent.polling with ⟨empty, _⟩ | ⟨poll, single, earlier, _⟩
  · rw [empty] at there
    exact absurd there (Nat.not_lt_zero _)
  · rw [single, List.length_singleton, Nat.lt_one_iff] at there
    exact ⟨poll, by rw [single, there]; rfl, earlier, by rw [single, there]; rfl⟩

theorem consistent_pollSuccess [DecidableEq α] {next : PollerSystem α} {callbacks : List (Callback α ε)}
    {newData : Option α} (answered : pollSuccess system newData = (next, callbacks))
    (delivered : ∀ data, system.delivered = some data → data = system.poller.lastData)
    (empty : system.inFlight = []) : Consistent next := by
  unfold pollSuccess at answered
  dsimp only at answered
  split at answered
  · cases answered
    refine ⟨Or.inl ⟨empty, rfl⟩, ?_⟩
    intro data isDelivered
    by_cases changed : newData ≠ system.poller.lastData
    · rw [if_pos changed, Option.some.injEq] at isDelivered
      exact isDelivered.symm
    · rw [if_neg changed] at isDelivered
      rw [delivered data isDelivered]
      exact (not_not.mp changed).symm
  · cases answered
    exact ⟨Or.inl ⟨empty, rfl⟩, delivered⟩

theorem Consistent.single (consistent : Consistent system) : system.inFlight.length ≤ 1 := by
  rcases consistent.polling with ⟨empty, _⟩ | ⟨_, single, _⟩
  · rw [empty]
    exact Nat.zero_le _
  · rw [single]
    exact Nat.le_refl _

/-- An event is the answer of a poll, or calls nothing back. -/
theorem step_cases [DecidableEq α] {event : PollerEvent α ε} {after : PollerSystem α}
    {callbacks : List (Callback α ε)} (stepped : step hasError system event = some (after, callbacks)) :
    (answered system event = none ∧ callbacks = [] ∧ (Consistent system → Consistent after)) ∨
    (∃ position newData, event = .success position newData ∧ position < system.inFlight.length ∧
      pollSuccess { system with inFlight := system.inFlight.eraseIdx position } newData = (after, callbacks)) ∨
    ∃ position failure, event = .error position failure ∧ position < system.inFlight.length ∧
      pollError hasError { system with inFlight := system.inFlight.eraseIdx position } failure = (after, callbacks) := by
  cases event with
  | start elapsed =>
      cases stepped
      exact Or.inl ⟨rfl, rfl, fun consistent => consistent_start consistent elapsed⟩
  | startOnce elapsed =>
      rw [step] at stepped
      split at stepped
      · cases stepped
        exact Or.inl ⟨rfl, rfl, id⟩
      · cases stepped
        refine Or.inl ⟨rfl, rfl, fun consistent => ?_⟩
        apply consistent_start
        exact ⟨consistent.polling, consistent.delivered⟩
  | stop =>
      cases stepped
      exact Or.inl ⟨rfl, rfl, consistent_stop⟩
  | setPaused paused elapsed =>
      cases stepped
      exact Or.inl ⟨rfl, rfl, fun consistent => consistent_setPaused consistent paused elapsed⟩
  | timer =>
      rw [step] at stepped
      split at stepped
      · cases stepped
        exact Or.inl ⟨rfl, rfl, fun consistent => consistent_poll ⟨consistent.polling, consistent.delivered⟩⟩
      · cases stepped
  | deferred elapsed =>
      rw [step] at stepped
      split at stepped
      · cases stepped
      · cases stepped
        refine Or.inl ⟨rfl, rfl, fun consistent => ?_⟩
        apply consistent_nextPoll
        exact ⟨consistent.polling, consistent.delivered⟩
  | success position newData =>
      rw [step] at stepped
      split at stepped
      · rename_i there
        exact Or.inr (Or.inl ⟨position, newData, rfl, there, Option.some.inj stepped⟩)
      · cases stepped
  | error position failure =>
      rw [step] at stepped
      split at stepped
      · rename_i there
        exact Or.inr (Or.inr ⟨position, failure, rfl, there, Option.some.inj stepped⟩)
      · cases stepped

theorem consistent_step [DecidableEq α] (consistent : Consistent system) {event : PollerEvent α ε}
    {after : PollerSystem α} {callbacks : List (Callback α ε)}
    (stepped : step hasError system event = some (after, callbacks)) : Consistent after := by
  rcases step_cases stepped with ⟨_, _, keeps⟩ | ⟨_, _, _, there, answered⟩ | ⟨_, _, _, there, answered⟩
  · exact keeps consistent
  · obtain ⟨_, _, _, empty⟩ := consistent.answer there
    exact consistent_pollSuccess answered consistent.delivered empty
  · obtain ⟨_, _, _, empty⟩ := consistent.answer there
    cases answered
    exact ⟨Or.inl ⟨empty, rfl⟩, consistent.delivered⟩

end Steps

/-! ### Silence -/

section Silence

variable {hasError : Bool} {before after : PollerSystem α} {event : PollerEvent α ε}

/-- A success calls back if the poller is running and the data are new. -/
theorem pollSuccess_callbacks [DecidableEq α] {newData : Option α} {callbacks : List (Callback α ε)}
    (answered : pollSuccess before newData = (after, callbacks)) :
    callbacks = if before.poller.stopped = false ∧ newData ≠ before.poller.lastData then [.onChange newData] else [] := by
  unfold pollSuccess at answered
  dsimp only at answered
  split at answered
  · rename_i running
    cases answered
    by_cases changed : newData ≠ before.poller.lastData
    · rw [if_pos changed, if_pos ⟨running, changed⟩]
    · rw [if_neg changed, if_neg (fun both => changed both.2)]
  · rename_i notRunning
    cases answered
    rw [if_neg (fun both => notRunning both.1)]

/-- What is asked of the callbacks of a step. -/
structure CallbacksSilent (before : PollerSystem α) (event : PollerEvent α ε) (callbacks : List (Callback α ε)) :
    Prop where
  stopped : before.poller.stopped = true → callbacks = []
  ignored : ∀ poll, answered before event = some poll → poll.stops < before.stops → callbacks = []
  changed : ∀ newData, Callback.onChange newData ∈ callbacks → before.delivered ≠ some newData

theorem silent_iff [DecidableEq α] (consistent : Consistent before) {callbacks : List (Callback α ε)}
    (stepped : step hasError before event = some (after, callbacks)) :
    Silent hasError before event after ↔ CallbacksSilent before event callbacks := by
  have only : ∀ others, step hasError before event = some (after, others) → others = callbacks := by
    intro others again
    exact (Prod.mk.inj (Option.some.inj (again.symm.trans stepped))).2
  constructor
  · intro silent
    exact ⟨fun isStopped => silent.stopped isStopped callbacks stepped,
      fun poll isPoll stale => silent.ignored poll isPoll stale callbacks stepped, silent.changed callbacks stepped⟩
  · intro silent
    constructor
    · exact ⟨consistent.single, (consistent_step consistent stepped).single⟩
    · intro isStopped others again
      rw [only others again]
      exact silent.stopped isStopped
    · intro poll isPoll stale others again
      rw [only others again]
      exact silent.ignored poll isPoll stale
    · intro others again
      rw [only others again]
      exact silent.changed

theorem silent_success_iff [DecidableEq α] (consistent : Consistent before) {position : ℕ} {newData : Option α}
    {callbacks : List (Callback α ε)} (there : position < before.inFlight.length)
    (isSuccess : pollSuccess { before with inFlight := before.inFlight.eraseIdx position } newData =
      (after, callbacks)) :
    CallbacksSilent before (.success position newData) callbacks ↔
      AnswersIgnored (ε := ε) hasError before (.success position newData) after := by
  obtain ⟨poll, isPoll, earlier, _⟩ := consistent.answer there
  rw [pollSuccess_callbacks isSuccess]
  dsimp only
  constructor
  · intro silent poll isPoll stale running
    by_contra changed
    have none := silent.ignored poll isPoll stale
    rw [if_pos ⟨running, changed⟩] at none
    cases none
  · intro ignored
    constructor
    · intro isStopped
      rw [isStopped, if_neg (fun both => Bool.noConfusion both.1)]
    · intro poll isPoll stale
      exact if_neg fun both => both.2 (ignored poll isPoll stale both.1)
    · intro other isDelivered delivered
      split at isDelivered
      · rename_i both
        rw [List.mem_singleton, Callback.onChange.injEq] at isDelivered
        exact both.2 (isDelivered ▸ consistent.delivered other delivered)
      · cases isDelivered

theorem silent_error_iff (consistent : Consistent before) {position : ℕ} {failure : ε}
    {callbacks : List (Callback α ε)} (there : position < before.inFlight.length)
    (isError : pollError hasError { before with inFlight := before.inFlight.eraseIdx position } failure =
      (after, callbacks)) :
    CallbacksSilent before (.error position failure) callbacks ↔
      AnswersIgnored (α := α) hasError before (.error position failure) after := by
  obtain ⟨poll, isPoll, earlier, _⟩ := consistent.answer there
  cases isError
  cases hasError with
  | false =>
      refine iff_of_true ⟨fun _ => rfl, fun _ _ _ => rfl, ?_⟩ (fun _ _ impossible => Bool.noConfusion impossible)
      intro newData isDelivered
      cases isDelivered
  | true =>
      constructor
      · intro silent other isOther _
        constructor
        · cases isStopped : before.poller.stopped with
          | false => rfl
          | true => exact nomatch silent.stopped isStopped
        · obtain rfl := Option.some.inj (isPoll.symm.trans isOther)
          by_contra apart
          exact nomatch silent.ignored poll isPoll (Nat.lt_of_le_of_ne earlier apart)
      · intro ignored
        obtain ⟨running, fresh⟩ := ignored poll isPoll rfl
        constructor
        · intro isStopped
          rw [running] at isStopped
          cases isStopped
        · intro other isOther stale
          obtain rfl := Option.some.inj (isPoll.symm.trans isOther)
          rw [fresh] at stale
          exact absurd stale (Nat.lt_irrefl _)
        · intro newData isDelivered
          cases List.mem_singleton.mp isDelivered

theorem ignored_of_unanswered (unanswered : answered before event = none) :
    AnswersIgnored hasError before event after := by
  cases event with
  | success position newData =>
      intro poll isPoll
      rw [answered, isPoll] at unanswered
      cases unanswered
  | error position failure =>
      intro poll isPoll
      rw [answered, isPoll] at unanswered
      cases unanswered
  | _ => trivial

/-- A step is silent exactly if the answers that should be ignored are. -/
theorem silent_iff_ignored [DecidableEq α] (consistent : Consistent before)
    (stepped : ∃ callbacks, step hasError before event = some (after, callbacks)) :
    Silent hasError before event after ↔ AnswersIgnored hasError before event after := by
  obtain ⟨callbacks, stepped⟩ := stepped
  rw [silent_iff consistent stepped]
  rcases step_cases stepped with ⟨unanswered, rfl, _⟩ | ⟨position, newData, rfl, there, isSuccess⟩ |
    ⟨position, failure, rfl, there, isError⟩
  · refine iff_of_true ⟨fun _ => rfl, fun _ _ _ => rfl, ?_⟩ (ignored_of_unanswered unanswered)
    intro newData isDelivered
    cases isDelivered
  · exact silent_success_iff consistent there isSuccess
  · exact silent_error_iff consistent there isError

end Silence

/-- In every run of a poller, from the one that is made: all steps are silent exactly if all answers that should be
    ignored are. -/
theorem poller_silent_iff [DecidableEq α] {hasError : Bool} {steps : List (PollerEvent α ε × PollerSystem α)}
    (run : Runs hasError {} steps) :
    Trace.Every (Silent hasError) {} steps ↔ Trace.Every (AnswersIgnored hasError) {} steps := by
  have made : Consistent ({} : PollerSystem α) := ⟨Or.inl ⟨rfl, rfl⟩, fun _ impossible => nomatch impossible⟩
  apply Trace.every_iff _ _ Consistent ?_ ?_ made run
  · intro before event after consistent stepped
    exact silent_iff_ignored consistent stepped
  · intro before event after consistent stepped _
    obtain ⟨_, stepped⟩ := stepped
    exact consistent_step consistent stepped

/-! ### Two runs -/

/-- What an event leads to, where it can happen. -/
def play (hasError : Bool) (system : PollerSystem ℕ) (event : PollerEvent ℕ ℕ) : PollerSystem ℕ :=
  ((step hasError system event).map Prod.fst).getD system

/-- The poller is started, gets data twice, is stopped while it polls for the third time, and ignores the answer. -/
theorem poller_silent_stopped : Trace.Every (Silent true) {} (Trace.play (play true) {}
    [.start true, .success 0 (some 1), .deferred true, .success 0 (some 1), .deferred true, .stop,
      .success 0 (some 2)]) := by
  have run : Runs true {} (Trace.play (play true) {}
      [.start true, .success 0 (some 1), .deferred true, .success 0 (some 1), .deferred true, .stop,
        .success 0 (some 2)]) := by
    exact ⟨⟨_, rfl⟩, ⟨_, rfl⟩, ⟨_, rfl⟩, ⟨_, rfl⟩, ⟨_, rfl⟩, ⟨_, rfl⟩, ⟨_, rfl⟩, trivial⟩
  apply (poller_silent_iff run).mpr
  refine ⟨trivial, ?_, trivial, ?_, trivial, trivial, ?_, trivial⟩
  · intro _ _ stale
    exact absurd stale (Nat.not_lt_zero _)
  · intro _ _ stale
    exact absurd stale (Nat.not_lt_zero _)
  · intro _ _ _ running
    cases running

/-- A poll fails after the poller was stopped, and `error` is called. -/
theorem poller_calls_error : ∃ steps : List (PollerEvent ℕ ℕ × PollerSystem ℕ),
    Runs true {} steps ∧ ¬Trace.Every (Silent true) {} steps := by
  refine ⟨Trace.play (play true) {} [.start true, .stop, .error 0 7], ⟨⟨_, rfl⟩, ⟨_, rfl⟩, ⟨_, rfl⟩, trivial⟩, ?_⟩
  rintro ⟨_, _, silent, _⟩
  exact nomatch silent.stopped rfl _ rfl

end Zigopt.Web.Polling
