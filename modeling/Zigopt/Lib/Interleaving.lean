/-
Module: Zigopt.Lib.Interleaving
Layer: Lib
Purpose: Agents that take turns on a shared store. An agent step changes the store and the agent's own
  local state, an environment step only the store, and any order of steps is a run. The second part is
  the discipline by which agents come to hold keys exclusively: a key is taken up only when the store
  says that nobody has it, and what others hold stays recorded.
Main exports: Interleaving.System, Interleaving.Reachable, Interleaving.Reachable.invariant,
  Interleaving.Disciplined, Interleaving.Disciplined.exclusive
-/
import Mathlib.Logic.Function.Basic
import Mathlib.Data.Set.Basic

namespace Interleaving

variable {σ τ ι κ : Type}

/-- The steps of agents and of the environment over a store `σ`; agents have local states `τ`. -/
structure System (σ τ : Type) where
  agent : σ → τ → σ → τ → Prop
  environment : σ → σ → Prop

/-- The store and the local state of every agent. -/
structure Configuration (σ τ ι : Type) where
  store : σ
  locals : ι → τ

variable [DecidableEq ι]

/-- One step of a system: one agent moves, or the environment does. -/
inductive Step (system : System σ τ) : Configuration σ τ ι → Configuration σ τ ι → Prop where
  | agent {store store' : σ} {locals : ι → τ} {own : τ} (moving : ι)
      (move : system.agent store (locals moving) store' own) :
      Step system ⟨store, locals⟩ ⟨store', Function.update locals moving own⟩
  | environment {store store' : σ} {locals : ι → τ} (move : system.environment store store') :
      Step system ⟨store, locals⟩ ⟨store', locals⟩

/-- What any number of steps in any order can lead to. -/
inductive Reachable (system : System σ τ) (start : Configuration σ τ ι) : Configuration σ τ ι → Prop where
  | start : Reachable system start start
  | step {before after : Configuration σ τ ι} :
      Reachable system start before → Step system before after → Reachable system start after

/-- What is reached from what is reached is reached. -/
theorem Reachable.trans {system : System σ τ} {first second third : Configuration σ τ ι}
    (reached : Reachable system first second) (further : Reachable system second third) :
    Reachable system first third := by
  induction further with
  | start => exact reached
  | step _ stepped inductionHypothesis => exact .step inductionHypothesis stepped

/-- What holds at the start and survives each step holds in every reachable configuration. -/
theorem Reachable.invariant {system : System σ τ} {start current : Configuration σ τ ι}
    (Invariant : Configuration σ τ ι → Prop) (reachable : Reachable system start current)
    (initially : Invariant start)
    (preserved : ∀ before after, Invariant before → Step system before after → Invariant after) :
    Invariant current := by
  induction reachable with
  | start => exact initially
  | step _ stepped inductionHypothesis => exact preserved _ _ inductionHypothesis stepped

/-- A property of the store alone needs one argument for agents and one for the environment. -/
theorem Reachable.storeInvariant {system : System σ τ} {start current : Configuration σ τ ι}
    (Invariant : σ → Prop) (reachable : Reachable system start current) (initially : Invariant start.store)
    (byAgent : ∀ store own store' own', Invariant store → system.agent store own store' own' →
      Invariant store')
    (byEnvironment : ∀ store store', Invariant store → system.environment store store' →
      Invariant store') : Invariant current.store := by
  have preserved : ∀ before after : Configuration σ τ ι, Invariant before.store →
      Step system before after → Invariant after.store := by
    intro before after holds stepped
    cases stepped with
    | agent moving move => exact byAgent _ _ _ _ holds move
    | environment move => exact byEnvironment _ _ holds move
  exact reachable.invariant (fun configuration => Invariant configuration.store) initially preserved

/-- A property of an agent's local state against the store has to survive the steps of the agent itself,
    those of the others and those of the environment. -/
theorem Reachable.localInvariant {system : System σ τ} {start current : Configuration σ τ ι}
    (StoreInvariant : σ → Prop) (Invariant : σ → τ → Prop) (reachable : Reachable system start current)
    (storeHolds : ∀ {configuration}, Reachable system start configuration →
      StoreInvariant configuration.store)
    (initially : ∀ agent, Invariant start.store (start.locals agent))
    (byItself : ∀ store own store' own', StoreInvariant store → Invariant store own →
      system.agent store own store' own' → Invariant store' own')
    (byOthers : ∀ store own store' own' other, StoreInvariant store → Invariant store other →
      system.agent store own store' own' → Invariant store' other)
    (byEnvironment : ∀ store store' other, StoreInvariant store → Invariant store other →
      system.environment store store' → Invariant store' other) :
    ∀ agent, Invariant current.store (current.locals agent) := by
  induction reachable with
  | start => exact initially
  | step reached stepped inductionHypothesis =>
      have storeInvariant := storeHolds reached
      intro agent
      cases stepped with
      | agent moving move =>
          by_cases same : agent = moving
          · subst same
            simp only [Function.update_self]
            exact byItself _ _ _ _ storeInvariant (inductionHypothesis agent) move
          · simp only [Function.update_of_ne same]
            exact byOthers _ _ _ _ _ storeInvariant (inductionHypothesis agent) move
      | environment move => exact byEnvironment _ _ _ storeInvariant (inductionHypothesis agent) move

/-!
### Exclusive keys

`holds` is the key an agent's local state holds, `taken` the keys the store has recorded as held. No
agent looks at the local state of another: exclusiveness comes from the record alone.
-/

/-- Agents respect the record in a `sound` store, as long as what they hold is recorded there: a key
    they come to hold was not taken before and is taken after, and every key that another agent may
    hold stays taken. -/
structure Disciplined (system : System σ τ) (sound : σ → Prop) (holds : τ → Option κ)
    (taken : σ → Set κ) : Prop where
  takes : ∀ {store own store' own' key}, sound store → system.agent store own store' own' →
    (∀ held, holds own = some held → held ∈ taken store) → holds own' = some key →
    key ∈ taken store' ∧ (holds own = some key ∨ key ∉ taken store)
  keeps : ∀ {store own store' own' key}, sound store → system.agent store own store' own' →
    (∀ held, holds own = some held → held ∈ taken store) → key ∈ taken store →
    holds own ≠ some key → key ∈ taken store'
  environment : ∀ {store store'}, system.environment store store' → taken store ⊆ taken store'

/-- Every held key is recorded, and no two agents hold the same one. -/
structure Exclusive (holds : τ → Option κ) (taken : σ → Set κ) (configuration : Configuration σ τ ι) :
    Prop where
  recorded : ∀ {agent key}, holds (configuration.locals agent) = some key → key ∈ taken configuration.store
  unshared : ∀ {agent other key}, holds (configuration.locals agent) = some key →
    holds (configuration.locals other) = some key → agent = other

/-- A step of a disciplined system keeps what is held exclusive. -/
theorem Disciplined.step {system : System σ τ} {sound : σ → Prop} {holds : τ → Option κ}
    {taken : σ → Set κ} (disciplined : Disciplined system sound holds taken)
    {before after : Configuration σ τ ι} (isSound : sound before.store)
    (exclusive : Exclusive holds taken before) (stepped : Step system before after) :
    Exclusive holds taken after := by
  cases stepped with
  | environment move =>
      constructor
      · intro agent key held
        exact disciplined.environment move (exclusive.recorded held)
      · intro agent other key held heldOther
        exact exclusive.unshared held heldOther
  | @agent store store' locals own moving move =>
      have recordedOwn : ∀ held, holds (locals moving) = some held → held ∈ taken store :=
        fun held holding => exclusive.recorded holding
      -- Whoever does not move keeps a recorded key, which the mover can only have held before.
      have othersKeep : ∀ {agent key}, agent ≠ moving → holds (locals agent) = some key →
          key ∈ taken store' ∧ holds own ≠ some key := by
        intro agent key different held
        have movingLacks : holds (locals moving) ≠ some key := by
          intro heldByMoving
          exact different (exclusive.unshared held heldByMoving)
        constructor
        · exact disciplined.keeps isSound move recordedOwn (exclusive.recorded held) movingLacks
        · intro taking
          rcases (disciplined.takes isSound move recordedOwn taking).2 with heldBefore | free
          · exact movingLacks heldBefore
          · exact free (exclusive.recorded held)
      constructor
      · intro agent key held
        by_cases same : agent = moving
        · subst same
          simp only [Function.update_self] at held
          exact (disciplined.takes isSound move recordedOwn held).1
        · simp only [Function.update_of_ne same] at held
          exact (othersKeep same held).1
      · intro agent other key held heldOther
        by_cases same : agent = moving
        · by_cases sameOther : other = moving
          · rw [same, sameOther]
          · subst same
            simp only [Function.update_self] at held
            simp only [Function.update_of_ne sameOther] at heldOther
            exact False.elim ((othersKeep sameOther heldOther).2 held)
        · simp only [Function.update_of_ne same] at held
          by_cases sameOther : other = moving
          · subst sameOther
            simp only [Function.update_self] at heldOther
            exact False.elim ((othersKeep same held).2 heldOther)
          · simp only [Function.update_of_ne sameOther] at heldOther
            exact exclusive.unshared held heldOther

/-- Disciplined agents that start without keys never share one. -/
theorem Disciplined.exclusive {system : System σ τ} {sound : σ → Prop} {holds : τ → Option κ}
    {taken : σ → Set κ} (disciplined : Disciplined system sound holds taken)
    {start current : Configuration σ τ ι}
    (alwaysSound : ∀ {configuration}, Reachable system start configuration → sound configuration.store)
    (emptyHanded : ∀ agent, holds (start.locals agent) = none)
    (reachable : Reachable system start current) : Exclusive holds taken current := by
  induction reachable with
  | start =>
      constructor
      · intro agent key held
        rw [emptyHanded agent] at held
        cases held
      · intro agent other key held
        rw [emptyHanded agent] at held
        cases held
  | step reached stepped inductionHypothesis =>
      exact disciplined.step (alwaysSound reached) inductionHypothesis stepped

end Interleaving
