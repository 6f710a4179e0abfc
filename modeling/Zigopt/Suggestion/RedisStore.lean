/-
Module: Zigopt.Suggestion.RedisStore
Layer: Suggestion
Purpose: The suggestions of one source of an experiment that wait in Redis: a hash from their uuids to their protobufs,
  and a sorted set of the same uuids by their timestamps. No pipeline joins the commands of an operation, so that an
  operation may be stopped between any two of them.
Main exports: SourceStore, storeUnprocessedSuggestions, truncateSuggestionLength, getSuggestionsPerSource,
  removeFromAvailableSuggestions, Step, InStep, Unharmed, in_step_iff
-/
import Mathlib.Algebra.Order.Ring.Rat
import Zigopt.Lib.Process
import Zigopt.Lib.RedisTable
import Zigopt.Lib.Trace

namespace Zigopt.Suggestion.RedisStore

/-- What Redis holds for one source of an experiment: `υ` are uuids and `μ` serialized suggestion metas. -/
structure SourceStore (υ μ : Type) where
  /-- The source is in the set of the experiment's sources. -/
  isListed : Bool
  protobufs : RedisTable υ μ
  timestamps : RedisTable υ ℚ

/-- The commands that the service sends. -/
inductive Command where
  | sadd
  | expire
  | hset
  | zadd
  | zrange
  | hgetall
  | hdel
  | zrem
  | smembers
deriving DecidableEq, Repr

/-- `model.backlog_multiplier` and `model.num_suggestions`, with their defaults. -/
structure Config where
  backlogMultiplier : ℕ := 3
  numSuggestions : ℕ := 5

section

variable {υ μ : Type} [LinearOrder υ]

namespace SourceStore

/-- SADD of the source. -/
def list (store : SourceStore υ μ) : SourceStore υ μ := { store with isListed := true }

def setProtobufs (suggestions : List (υ × μ)) (store : SourceStore υ μ) : SourceStore υ μ :=
  { store with protobufs := store.protobufs.setAll suggestions }

def addTimestamps (suggestions : List (υ × μ)) (timestamp : ℚ) (store : SourceStore υ μ) : SourceStore υ μ :=
  { store with timestamps := store.timestamps.addNew (suggestions.map fun suggestion => (suggestion.1, timestamp)) }

def removeProtobufs (uuids : List υ) (store : SourceStore υ μ) : SourceStore υ μ :=
  { store with protobufs := store.protobufs.removeAll uuids }

def removeTimestamps (uuids : List υ) (store : SourceStore υ μ) : SourceStore υ μ :=
  { store with timestamps := store.timestamps.removeAll uuids }

end SourceStore

/-- Code of the service: it sends its commands one by one. -/
abbrev RedisProcess (υ μ α : Type) := Process Command (SourceStore υ μ) String α

/-- `set_expire`: the keys outlive what is looked at here. -/
def setExpire : RedisProcess υ μ Unit := .write .expire id

/-- `_truncate_suggestion_length`. -/
def truncateSuggestionLength (numToKeep : ℕ) : RedisProcess υ μ Unit := do
  let stopIndex : ℤ := -numToKeep - 1
  let suggestionsToDrop ← .read .zrange fun store => store.timestamps.rangeTo stopIndex
  if suggestionsToDrop = [] then
    pure ()
  else do
    .write .hdel (SourceStore.removeProtobufs suggestionsToDrop)
    .write .zrem (SourceStore.removeTimestamps suggestionsToDrop)

/-- How many suggestions are kept after some have been stored. -/
def Config.numToKeep (config : Config) (suggestions : List (υ × μ)) : ℕ :=
  max suggestions.length config.numSuggestions * max config.backlogMultiplier 1

/-- `_store_unprocessed_suggestions` for the suggestions of one source, with their uuids. -/
def storeUnprocessedSuggestions (config : Config) (suggestions : List (υ × μ)) (timestamp : ℚ) :
    RedisProcess υ μ Unit := do
  .write .sadd SourceStore.list
  setExpire
  .write .hset (SourceStore.setProtobufs suggestions)
  setExpire
  .write .zadd (SourceStore.addTimestamps suggestions timestamp)
  setExpire
  truncateSuggestionLength (config.numToKeep suggestions)

/-- `insert_unprocessed_suggestions`. -/
def insertUnprocessedSuggestions (config : Config) (suggestions : List (υ × μ)) (timestamp : ℚ) :
    RedisProcess υ μ Unit :=
  if suggestions = [] then pure () else storeUnprocessedSuggestions config suggestions timestamp

/-- An unprocessed suggestion that has been read from Redis. -/
structure StoredSuggestion (υ μ : Type) where
  uuid : υ
  generatedTime : Option ℚ
  suggestionMeta : μ

/-- `get_suggestions_per_source` for a caller that names the source, or for one that names none and so reads the set
    of sources. -/
def getSuggestionsPerSource (isNamed : Bool) (isValid : μ → Bool) : RedisProcess υ μ (List (StoredSuggestion υ μ)) := do
  let isListed ← (if isNamed then pure true else .read .smembers SourceStore.isListed : RedisProcess υ μ Bool)
  if isListed then do
    let timestamps ← .read .zrange SourceStore.timestamps
    let protobufs ← .read .hgetall SourceStore.protobufs
    pure <| (protobufs.entries.map fun entry =>
      (⟨entry.1, timestamps.lookup entry.1, entry.2⟩ : StoredSuggestion υ μ)).filter fun stored =>
        isValid stored.suggestionMeta
  else pure []

/-- `remove_from_available_suggestions`. -/
def removeFromAvailableSuggestions (uuid : υ) : RedisProcess υ μ Unit := do
  .write .hdel (SourceStore.removeProtobufs [uuid])
  .write .zrem (SourceStore.removeTimestamps [uuid])

/-! ### Sequences of operations -/

/-- The calls of the service on one experiment's suggestions. -/
inductive Operation (υ μ : Type) where
  | insert (suggestions : List (υ × μ)) (timestamp : ℚ)
  | truncate (numToKeep : ℕ)
  | fetch (isNamed : Bool) (isValid : μ → Bool)
  | remove (uuid : υ)

/-- An operation, and after how many of its commands it is stopped by a failure. -/
structure Step (υ μ : Type) where
  operation : Operation υ μ
  stoppedAfter : Option ℕ := none

/-- The commands of an operation. -/
def Operation.process (config : Config) : Operation υ μ → RedisProcess υ μ Unit
  | .insert suggestions timestamp => insertUnprocessedSuggestions config suggestions timestamp
  | .truncate numToKeep => truncateSuggestionLength numToKeep
  | .fetch isNamed isValid => getSuggestionsPerSource isNamed isValid >>= fun _ => pure ()
  | .remove uuid => removeFromAvailableSuggestions uuid

/-- The store that a step leaves. -/
def next (config : Config) (store : SourceStore υ μ) (step : Step υ μ) : SourceStore υ μ :=
  match step.stoppedAfter with
  | none => ((step.operation.process config).run store).2
  | some count => (step.operation.process config).cutOff count store

/-- The uuids of the hash are those of the sorted set. -/
def InStep (store : SourceStore υ μ) : Prop :=
  ∀ uuid, uuid ∈ store.protobufs ↔ uuid ∈ store.timestamps

/-- Of what was stored, those with the highest timestamps are left, as many as are to be kept. Among equal timestamps
    the higher uuid is kept. -/
structure KeepsNewest (numToKeep : ℕ) (stored left : SourceStore υ μ) : Prop where
  length_timestamps : left.timestamps.keys.length = min numToKeep stored.timestamps.keys.length
  length_protobufs : left.protobufs.keys.length = min numToKeep stored.protobufs.keys.length
  unchanged : ∀ uuid ∈ left.timestamps, left.timestamps.lookup uuid = stored.timestamps.lookup uuid ∧
    left.protobufs.lookup uuid = stored.protobufs.lookup uuid
  newest : ∀ kept dropped keptTime droppedTime, left.timestamps.lookup kept = some keptTime →
    stored.timestamps.lookup dropped = some droppedTime → dropped ∉ left.timestamps →
      toLex (droppedTime, dropped) < toLex (keptTime, kept)

/-- What an operation does when nothing stops it. -/
def Performed (config : Config) (before : SourceStore υ μ) (after : SourceStore υ μ) : Operation υ μ → Prop
  | .insert [] _ => after = before
  | .insert suggestions timestamp =>
      KeepsNewest (config.numToKeep suggestions)
        ((before.setProtobufs suggestions).addTimestamps suggestions timestamp) after
  | .truncate numToKeep => KeepsNewest numToKeep before after
  | .fetch _ _ => after = before
  | .remove uuid => uuid ∉ after.protobufs ∧ uuid ∉ after.timestamps ∧
      ∀ other ≠ uuid, after.protobufs.lookup other = before.protobufs.lookup other ∧
        after.timestamps.lookup other = before.timestamps.lookup other

/-- A step leaves the hash and the sorted set in step, and its operation has done what it is for unless it was
    stopped. -/
def StepKept (config : Config) (before : SourceStore υ μ) (step : Step υ μ) (after : SourceStore υ μ) : Prop :=
  InStep after ∧ (step.stoppedAfter = none → Performed config before after step.operation)

/-- The step is not stopped where it does harm: between the HSET and the ZADD of new uuids, or between the HDEL and
    the ZREM of uuids that are there. -/
def Unharmed (config : Config) (before : SourceStore υ μ) (step : Step υ μ) : Prop :=
  match step.operation, step.stoppedAfter with
  | .insert suggestions _, some 3 => ∀ suggestion ∈ suggestions, suggestion.1 ∈ before.timestamps
  | .insert suggestions _, some 4 => ∀ suggestion ∈ suggestions, suggestion.1 ∈ before.timestamps
  | .insert suggestions timestamp, some 8 => suggestions = [] ∨
      (before.addTimestamps suggestions timestamp).timestamps.keys.length ≤ config.numToKeep suggestions
  | .truncate numToKeep, some 2 => before.timestamps.keys.length ≤ numToKeep
  | .remove uuid, some 1 => uuid ∉ before.timestamps
  | _, _ => True

/-! ### What the commands do to stores in step -/

namespace SourceStore

/-- What truncation leaves. -/
def truncated (numToKeep : ℕ) (store : SourceStore υ μ) : SourceStore υ μ :=
  (store.removeProtobufs (store.timestamps.lowest numToKeep)).removeTimestamps (store.timestamps.lowest numToKeep)

/-- What is stored before truncation. -/
def added (suggestions : List (υ × μ)) (timestamp : ℚ) (store : SourceStore υ μ) : SourceStore υ μ :=
  (store.list.setProtobufs suggestions).addTimestamps suggestions timestamp

end SourceStore

open SourceStore

theorem inStep_removed {store : SourceStore υ μ} (isInStep : InStep store) (uuids : List υ) :
    InStep ((store.removeProtobufs uuids).removeTimestamps uuids) := by
  intro uuid
  have both := isInStep uuid
  have inHash : uuid ∈ store.protobufs.removeAll uuids ↔ _ := RedisTable.mem_removeAll
  have inSet : uuid ∈ store.timestamps.removeAll uuids ↔ _ := RedisTable.mem_removeAll
  exact inHash.trans ((and_congr_left' both).trans inSet.symm)

/-- Between the two removals the structures are in step only if there is nothing to remove. -/
theorem inStep_removeProtobufs_iff {store : SourceStore υ μ} (isInStep : InStep store) (uuids : List υ) :
    InStep (store.removeProtobufs uuids) ↔ ∀ uuid ∈ uuids, uuid ∉ store.timestamps := by
  have inHash : ∀ uuid, uuid ∈ (store.removeProtobufs uuids).protobufs ↔ uuid ∈ store.timestamps ∧ uuid ∉ uuids := by
    intro uuid
    have removed : uuid ∈ store.protobufs.removeAll uuids ↔ _ := RedisTable.mem_removeAll
    exact removed.trans (and_congr_left' (isInStep uuid))
  constructor
  · intro stillInStep uuid isRemoved isThere
    exact ((inHash uuid).mp ((stillInStep uuid).mpr isThere)).2 isRemoved
  · intro areAbsent uuid
    constructor
    · intro member
      exact ((inHash uuid).mp member).1
    · intro isThere
      exact (inHash uuid).mpr ⟨isThere, fun isRemoved => areAbsent uuid isRemoved isThere⟩

theorem mem_setProtobufs {suggestions : List (υ × μ)} {store : SourceStore υ μ} {uuid : υ} :
    uuid ∈ (store.setProtobufs suggestions).protobufs ↔ uuid ∈ store.protobufs ∨ uuid ∈ suggestions.map Prod.fst :=
  RedisTable.mem_setAll

theorem mem_addTimestamps {suggestions : List (υ × μ)} {timestamp : ℚ} {store : SourceStore υ μ} {uuid : υ} :
    uuid ∈ (store.addTimestamps suggestions timestamp).timestamps ↔
      uuid ∈ store.timestamps ∨ uuid ∈ suggestions.map Prod.fst := by
  have member : uuid ∈ store.timestamps.addNew (suggestions.map fun suggestion => (suggestion.1, timestamp)) ↔ _ :=
    RedisTable.mem_addNew
  rw [List.map_map] at member
  exact member

theorem inStep_added {store : SourceStore υ μ} (isInStep : InStep store) (suggestions : List (υ × μ)) (timestamp : ℚ) :
    InStep (store.added suggestions timestamp) := by
  intro uuid
  have inHash : uuid ∈ (store.added suggestions timestamp).protobufs ↔ _ :=
    @mem_setProtobufs _ _ _ _ store.list _
  have inSet : uuid ∈ (store.added suggestions timestamp).timestamps ↔ _ :=
    @mem_addTimestamps _ _ _ _ _ (store.list.setProtobufs suggestions) _
  exact inHash.trans ((or_congr_left (isInStep uuid)).trans inSet.symm)

/-- Between the HSET and the ZADD the structures are in step only if all uuids were there before. -/
theorem inStep_setProtobufs_iff {store : SourceStore υ μ} (isInStep : InStep store) (suggestions : List (υ × μ)) :
    InStep (store.list.setProtobufs suggestions) ↔ ∀ suggestion ∈ suggestions, suggestion.1 ∈ store.timestamps := by
  have inHash : ∀ uuid, uuid ∈ (store.list.setProtobufs suggestions).protobufs ↔
      uuid ∈ store.timestamps ∨ uuid ∈ suggestions.map Prod.fst := by
    intro uuid
    exact mem_setProtobufs.trans (or_congr_left (isInStep uuid))
  constructor
  · intro stillInStep suggestion member
    exact (stillInStep suggestion.1).mp ((inHash _).mpr (Or.inr (List.mem_map_of_mem member)))
  · intro wereThere uuid
    constructor
    · intro member
      cases (inHash uuid).mp member with
      | inl isThere => exact isThere
      | inr isNew =>
          obtain ⟨suggestion, isSuggestion, sameUuid⟩ := List.mem_map.mp isNew
          rw [← sameUuid]
          exact wereThere suggestion isSuggestion
    · intro isThere
      exact (inHash uuid).mpr (Or.inl isThere)

theorem keepsNewest_truncated {store : SourceStore υ μ} (isInStep : InStep store) (numToKeep : ℕ) :
    KeepsNewest numToKeep store (store.truncated numToKeep) := by
  have lengthLeft : (store.truncated numToKeep).timestamps.keys.length = min numToKeep store.timestamps.keys.length :=
    RedisTable.length_dropLowest numToKeep store.timestamps
  constructor
  case length_timestamps => exact lengthLeft
  case length_protobufs =>
    have leftInStep : InStep (store.truncated numToKeep) := inStep_removed isInStep _
    rw [RedisTable.length_keys_congr leftInStep, RedisTable.length_keys_congr isInStep]
    exact lengthLeft
  case unchanged =>
    intro uuid isLeft
    have stays : uuid ∉ store.timestamps.lowest numToKeep := (RedisTable.mem_removeAll.mp isLeft).2
    exact ⟨RedisTable.lookup_removeAll stays, RedisTable.lookup_removeAll stays⟩
  case newest =>
    intro kept dropped keptTime droppedTime isKept wasThere isDropped
    exact RedisTable.lt_of_dropLowest isKept isDropped wasThere

/-! ### What the operations leave -/

theorem run_truncate (numToKeep : ℕ) (store : SourceStore υ μ) :
    ((truncateSuggestionLength numToKeep : RedisProcess υ μ Unit).run store).2 = store.truncated numToKeep := by
  rw [truncateSuggestionLength, Process.run_bind_ok (Process.run_read _ _ store)]
  by_cases isEmpty : store.timestamps.rangeTo (-numToKeep - 1) = []
  · rw [if_pos isEmpty, truncated, RedisTable.lowest, isEmpty]
    rfl
  · rw [if_neg isEmpty]
    rfl

theorem cutOff_truncate (count numToKeep : ℕ) (store : SourceStore υ μ) :
    (truncateSuggestionLength numToKeep : RedisProcess υ μ Unit).cutOff count store =
      match count with
      | 0 => store
      | 1 => store
      | 2 => store.removeProtobufs (store.timestamps.lowest numToKeep)
      | _ => store.truncated numToKeep := by
  rw [truncateSuggestionLength]
  cases count with
  | zero => rfl
  | succ count =>
      rw [Process.read, Process.statement_bind, Process.cutOff_statement, Process.returned_bind]
      by_cases isEmpty : store.timestamps.rangeTo (-numToKeep - 1) = []
      · rw [if_pos isEmpty, truncated, RedisTable.lowest, isEmpty]
        cases count with
        | zero => rfl
        | succ count => cases count <;> rfl
      · rw [if_neg isEmpty]
        cases count with
        | zero => rfl
        | succ count =>
            cases count with
            | zero => rfl
            | succ count => cases count <;> rfl

theorem run_store (config : Config) (suggestions : List (υ × μ)) (timestamp : ℚ) (store : SourceStore υ μ) :
    ((storeUnprocessedSuggestions config suggestions timestamp).run store).2 =
      (store.added suggestions timestamp).truncated (config.numToKeep suggestions) :=
  run_truncate (config.numToKeep suggestions) (store.added suggestions timestamp)

theorem cutOff_store (config : Config) (suggestions : List (υ × μ)) (timestamp : ℚ) (count : ℕ)
    (store : SourceStore υ μ) :
    (storeUnprocessedSuggestions config suggestions timestamp).cutOff count store =
      match count with
      | 0 => store
      | 1 => store.list
      | 2 => store.list
      | 3 => store.list.setProtobufs suggestions
      | 4 => store.list.setProtobufs suggestions
      | 5 => store.added suggestions timestamp
      | count + 6 => (truncateSuggestionLength (config.numToKeep suggestions) : RedisProcess υ μ Unit).cutOff count
          (store.added suggestions timestamp) := by
  match count with
  | 0 => rfl
  | 1 => rfl
  | 2 => rfl
  | 3 => rfl
  | 4 => rfl
  | 5 => rfl
  | count + 6 => rfl

theorem silent_fetch (isNamed : Bool) (isValid : μ → Bool) :
    Process.Silent (getSuggestionsPerSource isNamed isValid : RedisProcess υ μ _) := by
  apply Process.Silent.bind
  · cases isNamed with
    | true => trivial
    | false => exact Process.silent_read _ _
  · intro isListed
    cases isListed with
    | true => exact ⟨rfl, fun _ => ⟨rfl, fun _ => trivial⟩⟩
    | false => trivial

/-! ### One step -/

section

variable {config : Config} {before : SourceStore υ μ}

/-- A drop of the lowest ranks harms nothing if there are none to drop. -/
theorem inStep_dropped_iff (isInStep : InStep before) (numToKeep : ℕ) :
    InStep (before.removeProtobufs (before.timestamps.lowest numToKeep)) ↔
      before.timestamps.keys.length ≤ numToKeep := by
  rw [inStep_removeProtobufs_iff isInStep, ← RedisTable.lowest_eq_nil]
  constructor
  · intro areAbsent
    apply List.eq_nil_iff_forall_not_mem.mpr
    intro uuid isLowest
    exact areAbsent uuid isLowest (RedisTable.mem_of_mem_lowest isLowest)
  · intro isEmpty uuid isLowest
    rw [isEmpty] at isLowest
    exact absurd isLowest List.not_mem_nil

/-- An operation that is stopped has nothing more to show than a store in step. -/
theorem stepKept_stopped_iff (operation : Operation υ μ) (count : ℕ) :
    StepKept config before ⟨operation, some count⟩ (next config before ⟨operation, some count⟩) ↔
      InStep ((operation.process config).cutOff count before) :=
  and_iff_left fun completed => nomatch completed

theorem inStep_cutOff_truncate_iff (isInStep : InStep before) (count numToKeep : ℕ) :
    InStep ((truncateSuggestionLength numToKeep : RedisProcess υ μ Unit).cutOff count before) ↔
      (count = 2 → before.timestamps.keys.length ≤ numToKeep) := by
  rw [cutOff_truncate]
  match count with
  | 0 => exact ⟨fun _ isTwo => (nomatch isTwo), fun _ => isInStep⟩
  | 1 => exact ⟨fun _ isTwo => (nomatch isTwo), fun _ => isInStep⟩
  | 2 =>
      have dropped := inStep_dropped_iff isInStep numToKeep
      exact ⟨fun stillInStep _ => dropped.mp stillInStep, fun nothing => dropped.mpr (nothing rfl)⟩
  | count + 3 => exact ⟨fun _ isTwo => (nomatch isTwo), fun _ => inStep_removed isInStep _⟩

theorem unharmed_truncate (count numToKeep : ℕ) :
    Unharmed config before ⟨.truncate numToKeep, some count⟩ ↔
      (count = 2 → before.timestamps.keys.length ≤ numToKeep) := by
  match count with
  | 0 => exact ⟨fun _ isTwo => (nomatch isTwo), fun _ => trivial⟩
  | 1 => exact ⟨fun _ isTwo => (nomatch isTwo), fun _ => trivial⟩
  | 2 => exact ⟨fun unharmed _ => unharmed, fun nothing => nothing rfl⟩
  | count + 3 => exact ⟨fun _ isTwo => (nomatch isTwo), fun _ => trivial⟩

theorem stepKept_truncate_iff (isInStep : InStep before) (numToKeep : ℕ) (stoppedAfter : Option ℕ) :
    StepKept config before ⟨.truncate numToKeep, stoppedAfter⟩ (next config before ⟨.truncate numToKeep, stoppedAfter⟩) ↔
      Unharmed config before ⟨.truncate numToKeep, stoppedAfter⟩ := by
  cases stoppedAfter with
  | none =>
      have leaves : next config before ⟨.truncate numToKeep, none⟩ = before.truncated numToKeep :=
        run_truncate numToKeep before
      rw [leaves]
      exact ⟨fun _ => trivial, fun _ => ⟨inStep_removed isInStep _, fun _ => keepsNewest_truncated isInStep numToKeep⟩⟩
  | some count =>
      rw [stepKept_stopped_iff, unharmed_truncate]
      exact inStep_cutOff_truncate_iff isInStep count numToKeep

theorem inStep_cutOff_store_iff (isInStep : InStep before) (suggestions : List (υ × μ)) (timestamp : ℚ) (count : ℕ) :
    InStep ((storeUnprocessedSuggestions config suggestions timestamp).cutOff count before) ↔
      (count = 3 ∨ count = 4 → ∀ suggestion ∈ suggestions, suggestion.1 ∈ before.timestamps) ∧
        (count = 8 → (before.addTimestamps suggestions timestamp).timestamps.keys.length ≤
          config.numToKeep suggestions) := by
  have whenListed : InStep before.list := isInStep
  have whenSet := inStep_setProtobufs_iff isInStep suggestions
  have whenAdded := inStep_added isInStep suggestions timestamp
  rw [cutOff_store]
  match count with
  | 0 => simpa using isInStep
  | 1 => simpa using whenListed
  | 2 => simpa using whenListed
  | 3 => simpa using whenSet
  | 4 => simpa using whenSet
  | 5 => simpa using whenAdded
  | count + 6 =>
      have whenTruncated := inStep_cutOff_truncate_iff whenAdded count (config.numToKeep suggestions)
      have notEarlier : ¬(count + 6 = 3 ∨ count + 6 = 4) := by omega
      have isThird : count + 6 = 8 ↔ count = 2 := by omega
      rw [isThird]
      exact whenTruncated.trans (and_iff_right fun earlier => absurd earlier notEarlier).symm

theorem unharmed_insert (suggestions : List (υ × μ)) (timestamp : ℚ) (count : ℕ) :
    Unharmed config before ⟨.insert suggestions timestamp, some count⟩ ↔
      (count = 3 ∨ count = 4 → ∀ suggestion ∈ suggestions, suggestion.1 ∈ before.timestamps) ∧
        (count = 8 → suggestions = [] ∨ (before.addTimestamps suggestions timestamp).timestamps.keys.length ≤
          config.numToKeep suggestions) := by
  match count with
  | 0 => simp [Unharmed]
  | 1 => simp [Unharmed]
  | 2 => simp [Unharmed]
  | 3 => simp [Unharmed]
  | 4 => simp [Unharmed]
  | 5 => simp [Unharmed]
  | 6 => simp [Unharmed]
  | 7 => simp [Unharmed]
  | 8 => simp [Unharmed]
  | count + 9 => simp [Unharmed]

theorem stepKept_insert_iff (isInStep : InStep before) (suggestions : List (υ × μ)) (timestamp : ℚ)
    (stoppedAfter : Option ℕ) :
    StepKept config before ⟨.insert suggestions timestamp, stoppedAfter⟩
        (next config before ⟨.insert suggestions timestamp, stoppedAfter⟩) ↔
      Unharmed config before ⟨.insert suggestions timestamp, stoppedAfter⟩ := by
  cases suggestions with
  | nil =>
      cases stoppedAfter with
      | none => exact ⟨fun _ => trivial, fun _ => ⟨isInStep, fun _ => rfl⟩⟩
      | some count =>
          have nothing : (Operation.insert ([] : List (υ × μ)) timestamp).process config = .returned () := rfl
          rw [stepKept_stopped_iff, unharmed_insert, nothing, Process.cutOff_returned]
          exact ⟨fun _ => ⟨fun _ _ member => (nomatch member), fun _ => Or.inl rfl⟩, fun _ => isInStep⟩
  | cons first rest =>
      have stores : (Operation.insert (first :: rest) timestamp).process config =
          storeUnprocessedSuggestions config (first :: rest) timestamp := by
        rw [Operation.process, insertUnprocessedSuggestions, if_neg (List.cons_ne_nil first rest)]
      cases stoppedAfter with
      | none =>
          have isAdded := inStep_added isInStep (first :: rest) timestamp
          have leaves : next config before ⟨.insert (first :: rest) timestamp, none⟩ =
              (before.added (first :: rest) timestamp).truncated (config.numToKeep (first :: rest)) := by
            rw [← run_store, ← stores]
            rfl
          have newest := keepsNewest_truncated isAdded (config.numToKeep (first :: rest))
          rw [leaves]
          refine ⟨fun _ => trivial, fun _ => ⟨inStep_removed isAdded _, fun _ => ?_⟩⟩
          exact ⟨newest.length_timestamps, newest.length_protobufs, newest.unchanged, newest.newest⟩
      | some count =>
          rw [stepKept_stopped_iff, unharmed_insert, stores, inStep_cutOff_store_iff isInStep]
          simp only [List.cons_ne_nil, false_or]

theorem stepKept_fetch (isInStep : InStep before) (isNamed : Bool) (isValid : μ → Bool) (stoppedAfter : Option ℕ) :
    StepKept config before ⟨.fetch isNamed isValid, stoppedAfter⟩
      (next config before ⟨.fetch isNamed isValid, stoppedAfter⟩) := by
  have silent : Process.Silent ((Operation.fetch isNamed isValid : Operation υ μ).process config) :=
    (silent_fetch isNamed isValid).bind fun _ => trivial
  cases stoppedAfter with
  | none =>
      have leaves : next config before ⟨.fetch isNamed isValid, none⟩ = before := silent.run before
      rw [leaves]
      exact ⟨isInStep, fun _ => rfl⟩
  | some count =>
      rw [stepKept_stopped_iff, silent.cutOff]
      exact isInStep

theorem performed_remove (uuid : υ) :
    Performed config before ((before.removeProtobufs [uuid]).removeTimestamps [uuid]) (.remove uuid) := by
  have gone : ∀ {α : Type} {table : RedisTable υ α}, uuid ∉ table.removeAll [uuid] := by
    intro α table isThere
    exact (RedisTable.mem_removeAll.mp isThere).2 List.mem_cons_self
  refine ⟨gone, gone, ?_⟩
  intro other isOther
  have stays : other ∉ [uuid] := fun isIt => isOther (List.mem_singleton.mp isIt)
  exact ⟨RedisTable.lookup_removeAll stays, RedisTable.lookup_removeAll stays⟩

theorem stepKept_remove_iff (isInStep : InStep before) (uuid : υ) (stoppedAfter : Option ℕ) :
    StepKept config before ⟨.remove uuid, stoppedAfter⟩ (next config before ⟨.remove uuid, stoppedAfter⟩) ↔
      Unharmed config before ⟨.remove uuid, stoppedAfter⟩ := by
  cases stoppedAfter with
  | none => exact ⟨fun _ => trivial, fun _ => ⟨inStep_removed isInStep _, fun _ => performed_remove uuid⟩⟩
  | some count =>
      rw [stepKept_stopped_iff]
      match count with
      | 0 => exact ⟨fun _ => trivial, fun _ => isInStep⟩
      | 1 => exact (inStep_removeProtobufs_iff isInStep [uuid]).trans List.forall_mem_singleton
      | 2 => exact ⟨fun _ => trivial, fun _ => inStep_removed isInStep _⟩
      | count + 3 => exact ⟨fun _ => trivial, fun _ => inStep_removed isInStep _⟩

theorem stepKept_iff (isInStep : InStep before) (step : Step υ μ) :
    StepKept config before step (next config before step) ↔ Unharmed config before step := by
  cases step with
  | mk operation stoppedAfter =>
      cases operation with
      | insert suggestions timestamp => exact stepKept_insert_iff isInStep suggestions timestamp stoppedAfter
      | truncate numToKeep => exact stepKept_truncate_iff isInStep numToKeep stoppedAfter
      | fetch isNamed isValid =>
          exact ⟨fun _ => trivial, fun _ => stepKept_fetch isInStep isNamed isValid stoppedAfter⟩
      | remove uuid => exact stepKept_remove_iff isInStep uuid stoppedAfter

end

/-! ### Runs -/

/-- From a store in step, the operations of a sequence all keep the hash and the sorted set in step, and do what they
    are for, exactly if none of them is stopped where it does harm. -/
theorem in_step_iff (config : Config) (start : SourceStore υ μ) (startInStep : InStep start) (steps : List (Step υ μ)) :
    Trace.Every (StepKept config) start (Trace.play (next config) start steps) ↔
      Trace.Every (fun (before : SourceStore υ μ) step _ => Unharmed config before step) start
        (Trace.play (next config) start steps) := by
  have exact : ∀ (before : SourceStore υ μ) step after, InStep before → after = next config before step →
      (StepKept config before step after ↔ Unharmed config before step) := by
    rintro before step after isInStep rfl
    exact stepKept_iff isInStep step
  have keeps : ∀ (before : SourceStore υ μ) step after, InStep before → after = next config before step →
      StepKept config before step after → InStep after := by
    intro before step after _ _ kept
    exact kept.1
  exact Trace.every_iff (StepKept config) _ InStep exact keeps startInStep (Trace.every_play _ start steps)

end

/-- A source of which nothing is stored yet. -/
def emptyStore : SourceStore ℕ String := { isListed := false, protobufs := ∅, timestamps := ∅ }

theorem inStep_emptyStore : InStep emptyStore :=
  fun _ => Iff.rfl

/-- Three suggestions are inserted of which two are kept, a fetch is stopped, and one that is kept is removed. -/
theorem in_step_three_inserted :
    let config : Config := { backlogMultiplier := 0, numSuggestions := 2 }
    let steps : List (Step ℕ String) :=
      [⟨.insert [(7, "a"), (8, "b")] 10, none⟩, ⟨.insert [(5, "c")] 11, none⟩, ⟨.fetch true fun _ => true, some 1⟩,
        ⟨.remove 8, none⟩]
    Trace.Every (StepKept config) emptyStore (Trace.play (next config) emptyStore steps) :=
  (in_step_iff _ emptyStore inStep_emptyStore _).mpr ⟨trivial, trivial, trivial, trivial, trivial⟩

/-- A failure between the HSET and the ZADD leaves a uuid without a timestamp. -/
theorem stopped_insert_out_of_step :
    ¬ InStep (next {} emptyStore ⟨.insert [(7, "a")] 10, some 4⟩) := by
  intro isInStep
  exact absurd ((isInStep 7).mp (by decide)) (by decide)

end Zigopt.Suggestion.RedisStore
