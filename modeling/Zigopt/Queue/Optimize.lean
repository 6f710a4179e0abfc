/-
Module: Zigopt.Queue.Optimize
Layer: Queue
Purpose: The optimization queue in Redis: a sorted set of message keys, and one body with an expiry for each key of a
  persisted message type. An enqueue persists the bodies and then adds the keys that are not there, a dequeue pops a
  key and then reads its body; every Redis command is a step of its own, and time may pass between any two.
Main exports: MessageType, QueueMessage, unparseMessageKey, parseMessageKey, parse_unparse, Store, EnqueueCommand,
  robustEnqueue, retrieveMessageContents, QueueRequest, server
-/
import Mathlib.Algebra.Order.Ring.Rat
import Mathlib.Data.Char
import Mathlib.Data.List.Lex
import Zigopt.Lib.InFlight
import Zigopt.Lib.RedisTable

namespace Zigopt.Queue

/-- The message types of the optimization group. -/
inductive MessageType where
  | importances
  | nextPoints
  | optimize
deriving DecidableEq, Repr

/-- The name of the message type in the keys. -/
def MessageType.value : MessageType → String
  | .importances => "importances_messages"
  | .nextPoints => "next_points_messages"
  | .optimize => "optimize_messages"

/-- A message with the fields of its body; only a `NextPointsMessage` can have a count. -/
structure QueueMessage where
  messageType : MessageType
  experimentId : ℕ
  force : Bool := false
  count : Option ℤ := none
deriving DecidableEq, Repr

/-! ### Keys -/

/-- The text of a Redis key. -/
abbrev Key := List Char

/-- `unparse_deserialized_message` of the grouper. -/
def unparseGroupKey (experimentId : ℕ) : List Char := Nat.toDigits 10 experimentId

/-- `parse_group_key` of the grouper, for the digits that `int` reads. -/
def parseGroupKey (groupKey : List Char) : Option ℕ :=
  if groupKey ≠ [] ∧ groupKey.all Char.isDigit then some (Nat.ofDigitChars 10 groupKey 0) else none

/-- `_unparse_message_key`. -/
def unparseMessageKey (messageType : MessageType) (groupKey : List Char) : Key :=
  messageType.value.toList ++ ':' :: groupKey

/-- `_parse_message_key`: the key is split at the first divider. -/
def parseMessageKey (messageKey : Key) : List Char × List Char :=
  (messageKey.takeWhile (· ≠ ':'), (messageKey.dropWhile (· ≠ ':')).drop 1)

/-- `get_worker_class_for_message`, by the name of the message type. -/
def workerClassForMessage (name : List Char) : Option MessageType :=
  [MessageType.importances, .nextPoints, .optimize].find? fun messageType => messageType.value.toList = name

/-- The key of the requests of a message type for an experiment. -/
def messageKey (messageType : MessageType) (experimentId : ℕ) : Key :=
  unparseMessageKey messageType (unparseGroupKey experimentId)

/-- The key under which the message is queued. -/
def QueueMessage.key (message : QueueMessage) : Key := messageKey message.messageType message.experimentId

/-- `_is_persisted_message_type`. -/
def isPersistedMessageType : MessageType → Bool
  | .nextPoints => true
  | .optimize => true
  | .importances => false

theorem parse_unparseGroupKey (experimentId : ℕ) : parseGroupKey (unparseGroupKey experimentId) = some experimentId := by
  have isDigits : unparseGroupKey experimentId ≠ [] ∧ (unparseGroupKey experimentId).all Char.isDigit := by
    refine ⟨?_, ?_⟩
    · exact Nat.toDigits_ne_nil
    · rw [List.all_eq_true]
      intro character member
      exact Nat.isDigit_of_mem_toDigits (by decide) (by decide) member
  rw [parseGroupKey, if_pos isDigits, unparseGroupKey, Nat.ofDigitChars_ten_toDigits]

/-- A message key is read back, since no message type has the divider in it. -/
theorem parse_unparse (messageType : MessageType) (groupKey : List Char) :
    parseMessageKey (unparseMessageKey messageType groupKey) = (messageType.value.toList, groupKey) := by
  have noDivider : ∀ character ∈ messageType.value.toList, decide (character ≠ ':') = true := by
    cases messageType with
    | importances => exact List.all_eq_true.mp (by decide)
    | nextPoints => exact List.all_eq_true.mp (by decide)
    | optimize => exact List.all_eq_true.mp (by decide)
  rw [parseMessageKey, unparseMessageKey, List.takeWhile_append_of_pos noDivider,
    List.dropWhile_append_of_pos noDivider, List.takeWhile_cons_of_neg (by simp), List.dropWhile_cons_of_neg (by simp),
    List.append_nil, List.drop_one, List.tail_cons]

theorem workerClassForMessage_value (messageType : MessageType) :
    workerClassForMessage messageType.value.toList = some messageType := by
  cases messageType with
  | importances => decide
  | nextPoints => decide
  | optimize => decide

/-! ### The store -/

/-- A persisted body. -/
structure PersistedBody where
  experimentId : ℕ
  force : Bool
  count : Option ℤ
  expiresAt : ℕ
  /-- The number of the SET that wrote it; no code reads it. -/
  serial : ℕ
deriving DecidableEq, Repr

/-- A message that was asked to be enqueued, with the number of the command that brought it into Redis. -/
structure Request where
  message : QueueMessage
  serial : ℕ
deriving DecidableEq, Repr

/-- What a dequeue returned: the message and its enqueue time. The other fields record the key that was popped, how
    new the content is, and the requests that had come in since the last delivery of that key. -/
structure Delivery where
  message : QueueMessage
  enqueueTime : ℚ
  poppedKey : Key
  serial : ℕ
  coalesced : List Request
deriving DecidableEq

/-- The two Redis tables of the queue: the scores and the bodies. -/
structure Store where
  /-- In seconds. -/
  now : ℕ := 0
  queue : RedisTable Key ℚ := ∅
  bodies : RedisTable Key PersistedBody := ∅
  /-- What follows is the history, which no code reads: the number of SETs and ZADDs so far, the requests that are
      not delivered yet, those whose enqueue is complete, and the deliveries. -/
  serial : ℕ := 0
  waiting : List Request := []
  completed : List Request := []
  deliveries : List Delivery := []

/-- `queue.redis_key_expiry_time`, by default four hours. -/
structure Config where
  redisKeyExpiryTime : ℕ := 4 * 60 * 60
  isPositive : 0 < redisKeyExpiryTime := by decide

namespace Store

/-- GET of a body: an expired one is not there. -/
def get (store : Store) (key : Key) : Option PersistedBody :=
  (store.bodies.lookup key).filter fun body => store.now < body.expiresAt

end Store

/-! ### Enqueueing -/

/-- The commands of an enqueue: a SET for each persisted message, and one ZADD NX for all keys. -/
inductive EnqueueCommand where
  | set (message : QueueMessage)
  | zadd (messages : List QueueMessage) (score : ℚ)

/-- `_persist_message_contents`. -/
def persistMessageContents (queueMessages : List QueueMessage) : List EnqueueCommand :=
  (queueMessages.filter fun message => isPersistedMessageType message.messageType).map .set

/-- `enqueue` of the provider. -/
def enqueue (queueMessages : List QueueMessage) (messageScore : ℚ) : List EnqueueCommand :=
  persistMessageContents queueMessages ++ [.zadd queueMessages messageScore]

/-- `robust_enqueue`: the messages are enqueued by experiment. -/
def robustEnqueue (queueMessages : List QueueMessage) (now : ℚ) : List EnqueueCommand :=
  let experimentIds := (queueMessages.map QueueMessage.experimentId).eraseDups
  let enqueueTime : ℚ := now.floor
  experimentIds.flatMap fun experimentId =>
    enqueue (queueMessages.filter fun message => message.experimentId = experimentId) enqueueTime

/-- SET of a body, with its expiry. -/
def Store.set (config : Config) (store : Store) (message : QueueMessage) : Store :=
  let body : PersistedBody :=
    { experimentId := message.experimentId
      force := message.force
      count := message.count
      expiresAt := store.now + config.redisKeyExpiryTime
      serial := store.serial + 1 }
  { store with
    bodies := store.bodies.insert message.key body
    serial := store.serial + 1
    waiting := ⟨message, store.serial + 1⟩ :: store.waiting }

/-- ZADD NX of the keys. The enqueue of the messages is complete with it. -/
def Store.zadd (store : Store) (messages : List QueueMessage) (score : ℚ) (persisted : List Request) : Store :=
  let unpersisted : List Request :=
    (messages.filter fun message => !isPersistedMessageType message.messageType).map fun message =>
      ⟨message, store.serial + 1⟩
  { store with
    queue := store.queue.addNew (messages.map fun message => (message.key, score))
    serial := store.serial + 1
    waiting := unpersisted ++ store.waiting
    completed := unpersisted ++ persisted ++ store.completed }

/-! ### Dequeueing -/

/-- `_retrieve_message_contents`. A persisted message type gives the body that is stored under the key, any other one
    a message that is made up from the key. -/
def retrieveMessageContents (store : Store) (key : Key) : Option QueueMessage := do
  let (name, groupKey) := parseMessageKey key
  let messageType ← workerClassForMessage name
  if isPersistedMessageType messageType then
    let body ← store.get (unparseMessageKey messageType groupKey)
    some { messageType, experimentId := body.experimentId, force := body.force, count := body.count }
  else
    let experimentId ← parseGroupKey groupKey
    some { messageType, experimentId, force := true }

/-- How new the content is that a dequeue gets for a key: as new as the body, or as new as can be. -/
def Store.freshness (store : Store) (key : Key) : ℕ :=
  match store.get key with
  | some body => body.serial
  | none => store.serial

/-- The GET of a dequeue: it delivers a message, or finds none. -/
def Store.retrieve (store : Store) (key : Key) (enqueueTime : ℚ) : Store :=
  match retrieveMessageContents store key with
  | none => store
  | some message =>
      { store with
        waiting := store.waiting.filter fun request => request.message.key ≠ key
        deliveries :=
          { message
            enqueueTime
            poppedKey := key
            serial := store.freshness key
            coalesced := store.waiting.filter fun request => request.message.key = key } :: store.deliveries }

/-! ### Producers and consumers -/

/-- A request in flight: an enqueue with the commands that are left and the messages that it has persisted since its
    last ZADD, a dequeue that is to pop a key, or one that is to read the body of the key that it has popped. -/
inductive QueueRequest where
  | enqueueing (commands : List EnqueueCommand) (persisted : List Request)
  | dequeueing
  | retrieving (key : Key) (enqueueTime : ℚ)

/-- The two calls that the queue answers. -/
inductive Call where
  | robustEnqueue (queueMessages : List QueueMessage) (now : ℚ)
  | dequeue

/-- The next command of a request. BZPOPMIN on an empty queue times out. -/
def stepRequest (config : Config) (store : Store) : QueueRequest → Store × Option QueueRequest
  | .enqueueing [] _ => (store, none)
  | .enqueueing (.set message :: rest) persisted =>
      (store.set config message, some (.enqueueing rest (⟨message, store.serial + 1⟩ :: persisted)))
  | .enqueueing (.zadd messages score :: rest) persisted =>
      (store.zadd messages score persisted, some (.enqueueing rest []))
  | .dequeueing =>
      match store.queue.minimum with
      | none => (store, none)
      | some (key, score) => ({ store with queue := store.queue.erase key }, some (.retrieving key score))
  | .retrieving key enqueueTime => (store.retrieve key enqueueTime, none)

/-- Any number of producers and consumers; time passes between their commands. -/
def server (config : Config) : InFlight.Server Store Call QueueRequest Unit ℕ where
  receive
    | .robustEnqueue queueMessages now => .enqueueing (robustEnqueue queueMessages now) []
    | .dequeue => .dequeueing
  step := fun store _ request => stepRequest config store request
  environment := fun store seconds => { store with now := store.now + seconds }

abbrev State := InFlight.Configuration Store QueueRequest

/-- Calls, their steps, and the passing of seconds. -/
abbrev Event := InFlight.Event Call Unit ℕ

end Zigopt.Queue
