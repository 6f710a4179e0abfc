/-
Module: Zigopt.Suggestion.Broker
Layer: Suggestion
Purpose: Serving suggestions of one experiment over a shared store. A request first tries the queued
  suggestions, then the candidates of the samplers, then a random fallback, and in each case goes
  through `UnprocessedSuggestionService.process`, which inserts an unprocessed row, a processed row,
  and clears up behind itself. Every SQL statement and every Redis command is one step of its own, and
  requests interleave freely.
Main exports: Store, Pc, Request, RequestStep, EnvironmentStep, broker, Reached
-/
import Mathlib.Data.List.Basic
import Zigopt.Lib.Interleaving

namespace Zigopt.Suggestion

/-- The value of a uuid4. -/
abbrev Uuid := Nat

/-- What all requests of an experiment share. -/
structure Store where
  /-- The fields of the Redis hashes of unprocessed suggestions, over all sources. -/
  hash : List Uuid := []
  /-- The members of the Redis sorted sets of their timestamps. -/
  timestamps : List Uuid := []
  /-- The uuids generated so far; no code reads it. -/
  generated : List Uuid := []
  /-- The next value of `suggestions_id_seq`. -/
  nextId : Nat := 1
  /-- `suggestions`: id, the primary key, and uuid_value, which is unique. -/
  unprocessed : List (Nat × Uuid) := []
  /-- `suggestions_processed`: suggestion_id, the primary key, and queued_id, which is unique. -/
  processed : List (Nat × Option Nat) := []
  /-- The ids of the queued suggestions that are not deleted. -/
  queued : List Nat := []
deriving DecidableEq, Repr

namespace Store

def uuids (store : Store) : List Uuid := store.unprocessed.map Prod.snd
def ids (store : Store) : List Nat := store.unprocessed.map Prod.fst
def processedIds (store : Store) : List Nat := store.processed.map Prod.fst
def claimedIds (store : Store) : List Nat := store.processed.filterMap Prod.snd

/-- `uuid.uuid4()` came up with the uuid. -/
def generate (store : Store) (uuid : Uuid) : Store := { store with generated := uuid :: store.generated }

/-- The default of `id`, and `reserve_ids`. -/
def reserveId (store : Store) : Store := { store with nextId := store.nextId + 1 }

/-- An insert into `suggestions` violates neither of its unique constraints. -/
def CanInsertUnprocessed (store : Store) (id : Nat) (uuid : Uuid) : Prop :=
  id ∉ store.ids ∧ uuid ∉ store.uuids

/-- An insert into `suggestions_processed` violates neither of its unique constraints; NULLs in
    `queued_id` do not count. -/
def CanInsertProcessed (store : Store) (id : Nat) (queuedId : Option Nat) : Prop :=
  id ∉ store.processedIds ∧ ∀ queued, queuedId = some queued → queued ∉ store.claimedIds

def insertUnprocessed (store : Store) (id : Nat) (uuid : Uuid) : Store :=
  { store with unprocessed := (id, uuid) :: store.unprocessed }

def insertProcessed (store : Store) (id : Nat) (queuedId : Option Nat) : Store :=
  { store with processed := (id, queuedId) :: store.processed }

/-- The UPDATE of `replace_unprocessed`. -/
def replaceProcessed (store : Store) (oldId newId : Nat) : Store :=
  { store with processed := store.processed.map fun row =>
      if row.1 = oldId then (newId, row.2) else row }

/-- `remove_from_hash`. -/
def removeFromHash (store : Store) (uuid : Uuid) : Store :=
  { store with hash := store.hash.filter (· ≠ uuid) }

/-- `remove_from_sorted_set`. -/
def removeFromSortedSet (store : Store) (uuid : Uuid) : Store :=
  { store with timestamps := store.timestamps.filter (· ≠ uuid) }

/-- `delete_by_id` of the queued suggestions. -/
def deleteQueued (store : Store) (queuedId : Nat) : Store :=
  { store with queued := store.queued.filter (· ≠ queuedId) }

/-- The query of `find_next` after the claimed ids were read: the first id in order. -/
def findNext (store : Store) (claimedIds : List Nat) : Option Nat :=
  (store.queued.filter (· ∉ claimedIds)).min?

end Store

/-- What the brokers read from the experiment and from the configuration. -/
structure BrokerConfig where
  maxQueuedSuggestionFetches : Nat := 3
  forbidRandomFallback : Bool := false
  canGenerateFallbackSuggestions : Bool := true
  development : Bool := false
deriving DecidableEq, Repr

/-- `allow_random_replacement_on_conflict`. -/
def BrokerConfig.allowRandomReplacementOnConflict (config : BrokerConfig) : Bool :=
  config.canGenerateFallbackSuggestions && !config.development

/-- Where `process` was called from, with the rounds its loop has left. -/
inductive Caller where
  | queued (rounds : Nat) (queuedId : Nat)
  | next (rounds : Nat)
  | fallback
deriving DecidableEq, Repr

/-- The `queued_id` that the caller passes to `process`. -/
def Caller.queuedId : Caller → Option Nat
  | .queued _ queuedId => some queuedId
  | .next _ => none
  | .fallback => none

/-- The next statement of a request. -/
inductive Pc where
  | idle
  -- retrieve_queued_suggestions_if_exists
  | readClaimed (rounds : Nat)
  | findNext (rounds : Nat) (claimedIds : List Nat)
  | createUnprocessed (rounds : Nat) (queuedId : Nat)
  -- next_suggestion
  | sample (rounds : Nat)
  | lostHash (rounds : Nat) (uuid : Uuid)
  | lostSortedSet (rounds : Nat) (uuid : Uuid)
  | fallbackRandom
  -- process
  | reserveId (caller : Caller) (uuid : Uuid)
  | insertUnprocessed (caller : Caller) (uuid : Uuid) (id : Nat)
  | fetchUnprocessed (caller : Caller) (uuid : Uuid)
  | insertProcessed (caller : Caller) (uuid : Uuid) (id : Nat)
  | removeFromHash (caller : Caller) (uuid : Uuid) (id : Nat)
  | removeFromSortedSet (caller : Caller) (uuid : Uuid) (id : Nat)
  | deleteQueued (caller : Caller) (uuid : Uuid) (id : Nat)
  -- replace_with_random_if_necessary
  | findMatching (uuid : Uuid) (id : Nat)
  | replaceReserveId (id : Nat) (replacement : Uuid)
  | replaceInsert (id : Nat) (replacement : Uuid) (newId : Nat)
  | replaceUpdate (id : Nat) (replacement : Uuid) (newId : Nat)
  | returned (uuid : Uuid) (id : Nat) (queuedId : Option Nat)
  | failed
deriving DecidableEq, Repr

/-- The head of the loop over the queued suggestions; its `else` raises. -/
def Pc.queuedLoop : Nat → Pc
  | 0 => .failed
  | rounds + 1 => .readClaimed rounds

/-- Behind the loop of `next_suggestion`. -/
def Pc.afterLoop (config : BrokerConfig) : Pc :=
  if config.canGenerateFallbackSuggestions then .fallbackRandom else .failed

/-- The head of the loop of `next_suggestion`. -/
def Pc.nextLoop (config : BrokerConfig) : Nat → Pc
  | 0 => .afterLoop config
  | rounds + 1 => .sample rounds

/-- The request is inside the block of `next_suggestion` that tolerates exceptions. -/
def Pc.tolerant : Pc → Bool
  | .sample _ => true
  | .lostHash _ _ => true
  | .lostSortedSet _ _ => true
  | .reserveId (.next _) _ => true
  | .insertUnprocessed (.next _) _ _ => true
  | .fetchUnprocessed (.next _) _ => true
  | .insertProcessed (.next _) _ _ => true
  | .removeFromHash (.next _) _ _ => true
  | .removeFromSortedSet (.next _) _ _ => true
  | .deleteQueued (.next _) _ _ => true
  | _ => false

/-- The request has neither returned nor failed nor yet begun. -/
def Pc.running : Pc → Bool
  | .idle => false
  | .returned _ _ _ => false
  | .failed => false
  | _ => true

/-- A request with the uuids it lost to other requests and then removed from Redis itself; no code
    reads the list. -/
structure Request where
  pc : Pc := .idle
  lost : List Uuid := []
deriving DecidableEq, Repr

/-- One statement of a request. -/
inductive RequestStep (config : BrokerConfig) : Store → Request → Store → Request → Prop where
  | begin {store lost} :
      RequestStep config store ⟨.idle, lost⟩
        store ⟨.queuedLoop config.maxQueuedSuggestionFetches, lost⟩
  | readClaimed {store lost rounds} :
      RequestStep config store ⟨.readClaimed rounds, lost⟩
        store ⟨.findNext rounds store.claimedIds, lost⟩
  | foundNext {store lost rounds claimedIds queuedId} (found : store.findNext claimedIds = some queuedId) :
      RequestStep config store ⟨.findNext rounds claimedIds, lost⟩
        store ⟨.createUnprocessed rounds queuedId, lost⟩
  | foundNone {store lost rounds claimedIds} (none : store.findNext claimedIds = none) :
      RequestStep config store ⟨.findNext rounds claimedIds, lost⟩
        store ⟨.nextLoop config 5, lost⟩
  | createUnprocessed {store lost rounds queuedId} (uuid : Uuid)
      (unique : store.CanInsertUnprocessed store.nextId uuid) :
      RequestStep config store ⟨.createUnprocessed rounds queuedId, lost⟩
        ((store.generate uuid).reserveId.insertUnprocessed store.nextId uuid)
        ⟨.insertProcessed (.queued rounds queuedId) uuid store.nextId, lost⟩
  -- A candidate of the queue sampler comes from Redis, any other sampler makes a new one.
  | sampledStored {store lost rounds} (uuid : Uuid) (stored : uuid ∈ store.hash) :
      RequestStep config store ⟨.sample rounds, lost⟩
        store ⟨.reserveId (.next rounds) uuid, lost⟩
  | sampledNew {store lost rounds} (uuid : Uuid) :
      RequestStep config store ⟨.sample rounds, lost⟩
        (store.generate uuid) ⟨.reserveId (.next rounds) uuid, lost⟩
  | sampledNone {store lost rounds} :
      RequestStep config store ⟨.sample rounds, lost⟩
        store ⟨.afterLoop config, lost⟩
  | ignored {store lost rounds} :
      RequestStep config store ⟨.sample rounds, lost⟩
        store ⟨.nextLoop config rounds, lost⟩
  | reserveId {store lost caller uuid} :
      RequestStep config store ⟨.reserveId caller uuid, lost⟩
        store.reserveId ⟨.insertUnprocessed caller uuid store.nextId, lost⟩
  | insertUnprocessed {store lost caller uuid id} (unique : store.CanInsertUnprocessed id uuid) :
      RequestStep config store ⟨.insertUnprocessed caller uuid id, lost⟩
        (store.insertUnprocessed id uuid) ⟨.insertProcessed caller uuid id, lost⟩
  | duplicateUnprocessed {store lost caller uuid id} (duplicate : uuid ∈ store.uuids) :
      RequestStep config store ⟨.insertUnprocessed caller uuid id, lost⟩
        store ⟨.fetchUnprocessed caller uuid, lost⟩
  | fetchUnprocessed {store lost caller uuid} (id : Nat) (row : (id, uuid) ∈ store.unprocessed) :
      RequestStep config store ⟨.fetchUnprocessed caller uuid, lost⟩
        store ⟨.insertProcessed caller uuid id, lost⟩
  | insertProcessed {store lost caller uuid id} (unique : store.CanInsertProcessed id caller.queuedId) :
      RequestStep config store ⟨.insertProcessed caller uuid id, lost⟩
        (store.insertProcessed id caller.queuedId) ⟨.removeFromHash caller uuid id, lost⟩
  -- SuggestionAlreadyProcessedError: the loops go on, the fallback has no handler.
  | alreadyProcessedQueued {store lost rounds queuedId uuid id}
      (taken : ¬ store.CanInsertProcessed id (some queuedId)) :
      RequestStep config store ⟨.insertProcessed (.queued rounds queuedId) uuid id, lost⟩
        store ⟨.queuedLoop rounds, lost⟩
  | alreadyProcessedNext {store lost rounds uuid id} (taken : ¬ store.CanInsertProcessed id none) :
      RequestStep config store ⟨.insertProcessed (.next rounds) uuid id, lost⟩
        store ⟨.lostHash rounds uuid, lost⟩
  | removeFromHash {store lost caller uuid id} :
      RequestStep config store ⟨.removeFromHash caller uuid id, lost⟩
        (store.removeFromHash uuid) ⟨.removeFromSortedSet caller uuid id, lost⟩
  | removeFromSortedSet {store lost caller uuid id} :
      RequestStep config store ⟨.removeFromSortedSet caller uuid id, lost⟩
        (store.removeFromSortedSet uuid) ⟨.deleteQueued caller uuid id, lost⟩
  -- A failure of Redis is logged and tolerated.
  | removeFromHashFailed {store lost caller uuid id} :
      RequestStep config store ⟨.removeFromHash caller uuid id, lost⟩
        store ⟨.deleteQueued caller uuid id, lost⟩
  | removeFromSortedSetFailed {store lost caller uuid id} :
      RequestStep config store ⟨.removeFromSortedSet caller uuid id, lost⟩
        store ⟨.deleteQueued caller uuid id, lost⟩
  | lostHash {store lost rounds uuid} :
      RequestStep config store ⟨.lostHash rounds uuid, lost⟩
        (store.removeFromHash uuid) ⟨.lostSortedSet rounds uuid, uuid :: lost⟩
  | lostSortedSet {store lost rounds uuid} :
      RequestStep config store ⟨.lostSortedSet rounds uuid, lost⟩
        (store.removeFromSortedSet uuid) ⟨.nextLoop config rounds, lost⟩
  | lostHashFailed {store lost rounds uuid} :
      RequestStep config store ⟨.lostHash rounds uuid, lost⟩
        store ⟨.nextLoop config rounds, lost⟩
  | lostSortedSetFailed {store lost rounds uuid} :
      RequestStep config store ⟨.lostSortedSet rounds uuid, lost⟩
        store ⟨.nextLoop config rounds, lost⟩
  | deleteQueued {store lost rounds queuedId uuid id} :
      RequestStep config store ⟨.deleteQueued (.queued rounds queuedId) uuid id, lost⟩
        (store.deleteQueued queuedId) ⟨.returned uuid id (some queuedId), lost⟩
  | processed {store lost caller uuid id} (notQueued : caller.queuedId = none) :
      RequestStep config store ⟨.deleteQueued caller uuid id, lost⟩
        store ⟨.findMatching uuid id, lost⟩
  | fallbackRandom {store lost} (uuid : Uuid) :
      RequestStep config store ⟨.fallbackRandom, lost⟩
        (store.generate uuid) ⟨.reserveId .fallback uuid, lost⟩
  | noConflict {store lost uuid id} :
      RequestStep config store ⟨.findMatching uuid id, lost⟩
        store ⟨.returned uuid id none, lost⟩
  | conflict {store lost uuid id} (replacement : Uuid)
      (allowed : config.allowRandomReplacementOnConflict = true) :
      RequestStep config store ⟨.findMatching uuid id, lost⟩
        (store.generate replacement) ⟨.replaceReserveId id replacement, lost⟩
  | replaceReserveId {store lost id replacement} :
      RequestStep config store ⟨.replaceReserveId id replacement, lost⟩
        store.reserveId ⟨.replaceInsert id replacement store.nextId, lost⟩
  | replaceInsert {store lost id replacement newId}
      (unique : store.CanInsertUnprocessed newId replacement) :
      RequestStep config store ⟨.replaceInsert id replacement newId, lost⟩
        (store.insertUnprocessed newId replacement) ⟨.replaceUpdate id replacement newId, lost⟩
  | replaceUpdate {store lost id replacement newId} (unique : newId ∉ store.processedIds) :
      RequestStep config store ⟨.replaceUpdate id replacement newId, lost⟩
        (store.replaceProcessed id newId) ⟨.returned replacement newId none, lost⟩
  | tolerated {store lost pc} (inside : pc.tolerant = true) (allowed : config.forbidRandomFallback = false) :
      RequestStep config store ⟨pc, lost⟩ store ⟨.afterLoop config, lost⟩
  | raised {store lost pc} (running : pc.running = true) :
      RequestStep config store ⟨pc, lost⟩ store ⟨.failed, lost⟩

/-- What goes on around the requests: generated suggestions are put into Redis under new uuids, and
    dropped from it by truncation or expiry; users queue suggestions and delete them again, and create
    suggestions of their own (`explicit_suggestion`). -/
inductive EnvironmentStep : Store → Store → Prop where
  | storeInHash {store} (uuid : Uuid) :
      EnvironmentStep store { store.generate uuid with hash := uuid :: store.hash }
  | storeInSortedSet {store} (uuid : Uuid) :
      EnvironmentStep store { store with timestamps := uuid :: store.timestamps }
  | dropFromHash {store} (uuid : Uuid) : EnvironmentStep store (store.removeFromHash uuid)
  | dropFromSortedSet {store} (uuid : Uuid) : EnvironmentStep store (store.removeFromSortedSet uuid)
  | enqueue {store} (queuedId : Nat) :
      EnvironmentStep store { store with queued := queuedId :: store.queued }
  | deleteQueued {store} (queuedId : Nat) : EnvironmentStep store (store.deleteQueued queuedId)
  | explicitUnprocessed {store} (uuid : Uuid) (unique : store.CanInsertUnprocessed store.nextId uuid) :
      EnvironmentStep store ((store.generate uuid).reserveId.insertUnprocessed store.nextId uuid)
  | explicitProcessed {store} (id : Nat) (unique : store.CanInsertProcessed id none) :
      EnvironmentStep store (store.insertProcessed id none)

/-- Any number of requests on an experiment. -/
def broker (config : BrokerConfig) : Interleaving.System Store Request where
  agent := RequestStep config
  environment := EnvironmentStep

/-- The store and the requests of a running system. -/
abbrev Serving := Interleaving.Configuration Store Request Nat

/-- Before the first request. -/
def Serving.initial : Serving := ⟨{}, fun _ => {}⟩

/-- What some interleaving of requests and environment leads to. -/
abbrev Reached (config : BrokerConfig) (serving : Serving) : Prop :=
  Interleaving.Reachable (broker config) Serving.initial serving

end Zigopt.Suggestion
