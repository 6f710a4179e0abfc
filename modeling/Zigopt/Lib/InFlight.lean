/-
Module: Zigopt.Lib.InFlight
Layer: Lib
Purpose: A server that works on any number of requests at once. A call puts a request in flight, each
  further step moves one of the requests on, which changes the store and ends the request or leaves it
  waiting for its next step, and the environment may change the store at any point. A history is a list of
  such events in any order.
Main exports: InFlight.Server, InFlight.next, InFlight.after, InFlight.after_invariant, InFlight.next_step,
  InFlight.countP_step, InFlight.forall_next
-/
import Mathlib.Data.List.Basic
import Zigopt.Lib.Trace

namespace InFlight

variable {σ γ ρ φ ε : Type}

/-- Calls `γ` start requests `ρ` on a store `σ`. How a step of a request turns out (a call to another
    service that fails, say) is the `φ` of the event; `ε` are the changes that no request makes. -/
structure Server (σ γ ρ φ ε : Type) where
  receive : γ → ρ
  step : σ → φ → ρ → σ × Option ρ
  environment : σ → ε → σ

/-- The store and the requests in flight. -/
structure Configuration (σ ρ : Type) where
  store : σ
  inFlight : List ρ

/-- What happens next: a call comes, a request goes on, or the environment changes. -/
inductive Event (γ φ ε : Type) where
  | receive (call : γ)
  | step (position : Nat) (outcome : φ)
  | environment (change : ε)
  deriving Repr

/-- A step at a position where no request is in flight changes nothing. -/
def next (server : Server σ γ ρ φ ε) (configuration : Configuration σ ρ) :
    Event γ φ ε → Configuration σ ρ
  | .receive call => { configuration with inFlight := configuration.inFlight ++ [server.receive call] }
  | .step position outcome =>
      match configuration.inFlight[position]? with
      | none => configuration
      | some request =>
          let stepped := server.step configuration.store outcome request
          { store := stepped.1
            inFlight := configuration.inFlight.take position ++ stepped.2.toList ++
              configuration.inFlight.drop (position + 1) }
  | .environment change => { configuration with store := server.environment configuration.store change }

/-- The events with the configuration after each. -/
def run (server : Server σ γ ρ φ ε) (start : Configuration σ ρ) (events : List (Event γ φ ε)) :
    List (Event γ φ ε × Configuration σ ρ) :=
  Trace.play (next server) start events

/-- What the events lead to. -/
def after (server : Server σ γ ρ φ ε) (start : Configuration σ ρ) (events : List (Event γ φ ε)) : Configuration σ ρ :=
  events.foldl (next server) start

/-- What holds at the start and survives each event holds after any events. -/
theorem after_invariant {server : Server σ γ ρ φ ε} {start : Configuration σ ρ}
    (Invariant : Configuration σ ρ → Prop) (initially : Invariant start)
    (preserved : ∀ configuration event, Invariant configuration → Invariant (next server configuration event))
    (events : List (Event γ φ ε)) : Invariant (after server start events) := by
  induction events generalizing start with
  | nil => exact initially
  | cons event rest inductionHypothesis => exact inductionHypothesis (preserved start event initially)

/-- The requests beside the one that moves stay as they are. -/
theorem next_step (server : Server σ γ ρ φ ε) {configuration : Configuration σ ρ} {position : Nat}
    {request : ρ} (found : configuration.inFlight[position]? = some request) (outcome : φ) :
    ∃ front back, configuration.inFlight = front ++ request :: back ∧
      next server configuration (.step position outcome) =
        { store := (server.step configuration.store outcome request).1
          inFlight := front ++ (server.step configuration.store outcome request).2.toList ++ back } := by
  refine ⟨configuration.inFlight.take position, configuration.inFlight.drop (position + 1), ?_, ?_⟩
  · rcases List.getElem?_eq_some_iff.mp found with ⟨inRange, isRequest⟩
    rw [← isRequest, List.getElem_cons_drop, List.take_append_drop]
  · simp only [next, found]

/-- A step of no request is none. -/
theorem next_step_none {server : Server σ γ ρ φ ε} {configuration : Configuration σ ρ} {position : Nat}
    (missing : configuration.inFlight[position]? = none) (outcome : φ) :
    next server configuration (.step position outcome) = configuration := by
  simp only [next, missing]

/-- Whoever is in flight after a step was so before, or is what is left of the request that moved. -/
theorem mem_stepped {front back : List ρ} {moving request : ρ} {left : Option ρ}
    (member : request ∈ front ++ left.toList ++ back) : request ∈ front ++ moving :: back ∨ left = some request := by
  rcases List.mem_append.mp member with early | inBack
  · rcases List.mem_append.mp early with inFront | isLeft
    · exact Or.inl (List.mem_append_left _ inFront)
    · exact Or.inr (Option.mem_toList.mp isLeft)
  · exact Or.inl (List.mem_append_right _ (List.mem_cons_of_mem _ inBack))

/-- Whoever does not move stays in flight. -/
theorem mem_stepped_of_ne {front back : List ρ} {moving request : ρ} (left : Option ρ)
    (member : request ∈ front ++ moving :: back) (isOther : request ≠ moving) :
    request ∈ front ++ left.toList ++ back := by
  rcases List.mem_append.mp member with inFront | inRest
  · exact List.mem_append_left _ (List.mem_append_left _ inFront)
  · rcases List.mem_cons.mp inRest with isMoving | inBack
    · exact absurd isMoving isOther
    · exact List.mem_append_right _ inBack

theorem mem_stepped_left (front back : List ρ) (left : ρ) : left ∈ front ++ (some left).toList ++ back :=
  List.mem_append_left _ (List.mem_append_right _ (List.mem_singleton_self left))

/-- A step changes how many requests in flight have a property by the request that moves alone. -/
theorem countP_step (front back : List ρ) (request : ρ) (left : Option ρ) (property : ρ → Bool) :
    (front ++ left.toList ++ back).countP property + (if property request then 1 else 0) =
      (front ++ request :: back).countP property + left.toList.countP property := by
  simp only [List.countP_append, List.countP_cons]
  omega

/-- Every request in flight keeps a property that calls start with and steps keep. -/
theorem forall_next (server : Server σ γ ρ φ ε) (configuration : Configuration σ ρ)
    (event : Event γ φ ε) (property : ρ → Prop)
    (received : ∀ call, event = .receive call → property (server.receive call))
    (stepped : ∀ position outcome request left, event = .step position outcome →
      configuration.inFlight[position]? = some request → property request →
      (server.step configuration.store outcome request).2 = some left → property left)
    (holds : ∀ request ∈ configuration.inFlight, property request) :
    ∀ request ∈ (next server configuration event).inFlight, property request := by
  cases event with
  | receive call =>
      intro request member
      rcases List.mem_append.mp member with before | new
      · exact holds request before
      · rw [List.mem_singleton.mp new]
        exact received call rfl
  | step position outcome =>
      cases found : configuration.inFlight[position]? with
      | none =>
          rw [next_step_none found]
          exact holds
      | some moving =>
          rcases next_step server found outcome with ⟨front, back, split, isNext⟩
          have others : ∀ request, request ∈ front ∨ request ∈ back → property request := by
            intro request member
            apply holds
            rw [split]
            rcases member with inFront | inBack
            · exact List.mem_append_left _ inFront
            · exact List.mem_append_right _ (List.mem_cons_of_mem _ inBack)
          have movingMember : moving ∈ configuration.inFlight := List.mem_of_getElem? found
          intro request member
          rw [isNext] at member
          rcases List.mem_append.mp member with early | inBack
          · rcases List.mem_append.mp early with inFront | isLeft
            · exact others request (.inl inFront)
            · rw [Option.mem_toList] at isLeft
              exact stepped position outcome moving request rfl found (holds moving movingMember) isLeft
          · exact others request (.inr inBack)
  | environment change => exact holds

end InFlight
