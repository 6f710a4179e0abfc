/-
Module: Zigopt.Queue.NothingLost
Layer: Proofs
Purpose: When the optimization queue loses no request, over any number of producers and consumers and every order of
  their Redis commands. A body expires after hours, whether or not its key was popped in between, and the body of a
  later request takes the place of an earlier one that may have been forced.
Main exports: NothingLost, Met, Keyed, Sound, sound_next, nothing_lost
-/
import Mathlib.Tactic.Common
import Zigopt.Queue.Optimize

namespace Zigopt.Queue

/-- A message of the type and the experiment of the request was delivered, with content at least as new. -/
def Delivered (store : Store) (request : Request) : Prop :=
  ∃ delivery ∈ store.deliveries, delivery.message.messageType = request.message.messageType ∧
    delivery.message.experimentId = request.message.experimentId ∧ request.serial ≤ delivery.serial

/-- A body at least as new as the request can be read, where the content is persisted at all. -/
def Readable (store : Store) (request : Request) : Prop :=
  isPersistedMessageType request.message.messageType = true →
    ∃ body, store.get request.message.key = some body ∧ request.serial ≤ body.serial

def BeingRetrieved (state : State) (key : Key) : Prop :=
  ∃ enqueueTime, QueueRequest.retrieving key enqueueTime ∈ state.inFlight

/-- Every request whose enqueue is complete is queued, on its way to a consumer, or delivered, and a delivered message
    has the force of the requests that it stands for. -/
structure NothingLost (state : State) : Prop where
  served : ∀ request ∈ state.store.completed,
    (request.message.key ∈ state.store.queue ∧ Readable state.store request) ∨
      (BeingRetrieved state request.message.key ∧ Readable state.store request) ∨ Delivered state.store request
  forced : ∀ delivery ∈ state.store.deliveries,
    (∃ request ∈ delivery.coalesced, request.message.force = true) → delivery.message.force = true

/-- Messages are delivered for the message type and the experiment of the key that was popped. -/
def DeliversWhatItPopped (state : State) : Prop :=
  ∀ delivery ∈ state.store.deliveries, delivery.message.key = delivery.poppedKey

/-- The step of a request does not persist a message without force over that of a request that waits with force. -/
def RequestMet (store : Store) : QueueRequest → Prop
  | .enqueueing (.set message :: _) _ => ∀ request ∈ store.waiting, request.message.key = message.key →
      request.message.force = true → message.force = true
  | _ => True

/-- No body expires while a request for it waits to be delivered, and no message without force is persisted over the
    body of a waiting one with force. -/
def Met (state : State) : Event → Prop
  | .environment seconds => ∀ request ∈ state.store.waiting,
      isPersistedMessageType request.message.messageType = true →
        ∀ body ∈ state.store.get request.message.key, state.store.now + seconds < body.expiresAt
  | .step position _ => ∀ moving ∈ state.inFlight[position]?, RequestMet state.store moving
  | .receive _ => True

instance (store : Store) : DecidablePred (RequestMet store)
  | .enqueueing (.set message :: _) _ => inferInstanceAs (Decidable (∀ request ∈ store.waiting,
      request.message.key = message.key → request.message.force = true → message.force = true))
  | .enqueueing [] _ => instDecidableTrue
  | .enqueueing (.zadd _ _ :: _) _ => instDecidableTrue
  | .dequeueing => instDecidableTrue
  | .retrieving _ _ => instDecidableTrue

instance (state : State) : DecidablePred (Met state)
  | .environment seconds => inferInstanceAs (Decidable (∀ request ∈ state.store.waiting,
      isPersistedMessageType request.message.messageType = true →
        ∀ body ∈ state.store.get request.message.key, state.store.now + seconds < body.expiresAt))
  | .step position _ => inferInstanceAs (Decidable (∀ moving ∈ state.inFlight[position]?, RequestMet state.store moving))
  | .receive _ => instDecidableTrue

/-! ### Keys and what is retrieved for them -/

theorem messageKey_injective {messageType other : MessageType} {experimentId otherId : ℕ}
    (same : messageKey messageType experimentId = messageKey other otherId) :
    messageType = other ∧ experimentId = otherId := by
  have parsed := congrArg parseMessageKey same
  rw [messageKey, messageKey, parse_unparse, parse_unparse] at parsed
  have values := congrArg workerClassForMessage (Prod.mk.inj parsed).1
  have groups := congrArg parseGroupKey (Prod.mk.inj parsed).2
  rw [workerClassForMessage_value, workerClassForMessage_value] at values
  rw [parse_unparseGroupKey, parse_unparseGroupKey] at groups
  exact ⟨Option.some.inj values, Option.some.inj groups⟩

theorem retrieve_persisted (store : Store) {messageType : MessageType} (experimentId : ℕ)
    (isPersisted : isPersistedMessageType messageType = true) :
    retrieveMessageContents store (messageKey messageType experimentId) =
      (store.get (messageKey messageType experimentId)).map fun body =>
        { messageType, experimentId := body.experimentId, force := body.force, count := body.count } := by
  rw [retrieveMessageContents, messageKey, parse_unparse]
  dsimp only
  rw [workerClassForMessage_value, Option.bind_eq_bind, Option.bind_some, if_pos isPersisted]
  cases store.get (unparseMessageKey messageType (unparseGroupKey experimentId)) with
  | none => rfl
  | some body => rfl

theorem retrieve_unpersisted (store : Store) {messageType : MessageType} (experimentId : ℕ)
    (isUnpersisted : ¬ isPersistedMessageType messageType = true) :
    retrieveMessageContents store (messageKey messageType experimentId) =
      some { messageType, experimentId, force := true } := by
  rw [retrieveMessageContents, messageKey, parse_unparse]
  dsimp only
  rw [workerClassForMessage_value, Option.bind_eq_bind, Option.bind_some, if_neg isUnpersisted, parse_unparseGroupKey]
  rfl

/-! ### What holds in every run -/

def IsMessageKey (key : Key) : Prop :=
  ∃ messageType experimentId, key = messageKey messageType experimentId

/-- The keys of the queue and of the bodies are keys of messages, and a body is one of the experiment of its key. -/
structure StoreKeyed (store : Store) : Prop where
  queue : ∀ key ∈ store.queue, IsMessageKey key
  bodies : ∀ key body, store.bodies.lookup key = some body →
    ∃ messageType, isPersistedMessageType messageType = true ∧ key = messageKey messageType body.experimentId
  delivers : ∀ delivery ∈ store.deliveries, delivery.message.key = delivery.poppedKey

/-- The next ZADD of an enqueue adds the key of the message. -/
def Owes (message : QueueMessage) : List EnqueueCommand → Prop
  | [] => False
  | .set _ :: rest => Owes message rest
  | .zadd messages _ :: _ => message ∈ messages

/-- What is set is of a persisted message type, and its key is added later on. -/
def Ordered : List EnqueueCommand → Prop
  | [] => True
  | .set message :: rest => isPersistedMessageType message.messageType = true ∧ Owes message rest ∧ Ordered rest
  | .zadd _ _ :: rest => Ordered rest

def RequestKeyed : QueueRequest → Prop
  | .enqueueing commands persisted => Ordered commands ∧ ∀ request ∈ persisted, Owes request.message commands
  | .dequeueing => True
  | .retrieving key _ => IsMessageKey key

/-- The keys of the store and of the requests in flight are keys of messages. -/
structure Keyed (state : State) : Prop where
  store : StoreKeyed state.store
  requests : ∀ request ∈ state.inFlight, RequestKeyed request

theorem ordered_enqueue (queueMessages : List QueueMessage) (messageScore : ℚ) {rest : List EnqueueCommand}
    (restOrdered : Ordered rest) : Ordered (enqueue queueMessages messageScore ++ rest) := by
  have owed : ∀ (sets : List QueueMessage) (message : QueueMessage), message ∈ queueMessages →
      Owes message (sets.map .set ++ .zadd queueMessages messageScore :: rest) := by
    intro sets message member
    induction sets with
    | nil => exact member
    | cons first others inductionHypothesis => exact inductionHypothesis
  have ordered : ∀ sets : List QueueMessage,
      (∀ message ∈ sets, message ∈ queueMessages ∧ isPersistedMessageType message.messageType = true) →
        Ordered (sets.map .set ++ .zadd queueMessages messageScore :: rest) := by
    intro sets arePersisted
    induction sets with
    | nil => exact restOrdered
    | cons first others inductionHypothesis =>
        obtain ⟨isMessage, isPersisted⟩ := arePersisted first List.mem_cons_self
        refine ⟨isPersisted, owed others first isMessage, inductionHypothesis ?_⟩
        intro message member
        exact arePersisted message (List.mem_cons_of_mem _ member)
  rw [enqueue, persistMessageContents, List.append_assoc]
  apply ordered
  intro message member
  exact List.mem_filter.mp member

theorem ordered_robustEnqueue (queueMessages : List QueueMessage) (now : ℚ) :
    Ordered (robustEnqueue queueMessages now) := by
  rw [robustEnqueue]
  generalize (queueMessages.map QueueMessage.experimentId).eraseDups = experimentIds
  induction experimentIds with
  | nil => trivial
  | cons experimentId rest inductionHypothesis => exact ordered_enqueue _ _ inductionHypothesis

theorem lookup_of_get {store : Store} {key : Key} {body : PersistedBody} (isRead : store.get key = some body) :
    store.bodies.lookup key = some body :=
  (Option.filter_eq_some_iff.mp isRead).1

/-- A body that is read for a key is one of its message type and its experiment. -/
theorem StoreKeyed.body {store : Store} (keyed : StoreKeyed store) {messageType : MessageType} {experimentId : ℕ}
    {body : PersistedBody} (isRead : store.get (messageKey messageType experimentId) = some body) :
    isPersistedMessageType messageType = true ∧ body.experimentId = experimentId := by
  obtain ⟨storedType, isPersisted, isKey⟩ := keyed.bodies _ body (lookup_of_get isRead)
  obtain ⟨sameType, sameId⟩ := messageKey_injective isKey
  rw [sameType]
  exact ⟨isPersisted, sameId.symm⟩

/-- What is retrieved for a key is a message of that key. -/
theorem StoreKeyed.retrieved {store : Store} (keyed : StoreKeyed store) {messageType : MessageType} {experimentId : ℕ}
    {message : QueueMessage}
    (isRetrieved : retrieveMessageContents store (messageKey messageType experimentId) = some message) :
    message.messageType = messageType ∧ message.experimentId = experimentId := by
  by_cases isPersisted : isPersistedMessageType messageType = true
  · rw [retrieve_persisted _ _ isPersisted, Option.map_eq_some_iff] at isRetrieved
    obtain ⟨body, isRead, isMessage⟩ := isRetrieved
    rw [← isMessage]
    exact ⟨rfl, (keyed.body isRead).2⟩
  · rw [retrieve_unpersisted _ _ isPersisted, Option.some.injEq] at isRetrieved
    rw [← isRetrieved]
    exact ⟨rfl, rfl⟩

section

variable {store : Store} {key : Key}

theorem retrieve_none {enqueueTime : ℚ} (missing : retrieveMessageContents store key = none) :
    store.retrieve key enqueueTime = store := by
  rw [Store.retrieve, missing]

/-- What a dequeue delivers when it gets the message for a key. -/
def deliveryOf (store : Store) (key : Key) (enqueueTime : ℚ) (message : QueueMessage) : Delivery :=
  { message
    enqueueTime
    poppedKey := key
    serial := store.freshness key
    coalesced := store.waiting.filter fun request => request.message.key = key }

theorem retrieve_some {enqueueTime : ℚ} {message : QueueMessage}
    (isRetrieved : retrieveMessageContents store key = some message) :
    store.retrieve key enqueueTime =
      { store with
        waiting := store.waiting.filter fun request => request.message.key ≠ key
        deliveries := deliveryOf store key enqueueTime message :: store.deliveries } := by
  rw [Store.retrieve, isRetrieved]
  rfl

theorem storeKeyed_set (config : Config) (keyed : StoreKeyed store) {message : QueueMessage}
    (isPersisted : isPersistedMessageType message.messageType = true) : StoreKeyed (store.set config message) := by
  refine ⟨keyed.queue, ?_, keyed.delivers⟩
  intro other body isStored
  by_cases same : other = message.key
  · rw [same, Store.set, AList.lookup_insert, Option.some.injEq] at isStored
    rw [same, ← isStored]
    exact ⟨message.messageType, isPersisted, rfl⟩
  · rw [Store.set, AList.lookup_insert_ne same] at isStored
    exact keyed.bodies other body isStored

theorem mem_queue_zadd {messages : List QueueMessage} {score : ℚ} {persisted : List Request} :
    key ∈ (store.zadd messages score persisted).queue ↔ key ∈ store.queue ∨ ∃ message ∈ messages, message.key = key := by
  rw [Store.zadd, RedisTable.mem_addNew, List.map_map, List.mem_map]
  rfl

theorem storeKeyed_zadd (keyed : StoreKeyed store) (messages : List QueueMessage) (score : ℚ)
    (persisted : List Request) : StoreKeyed (store.zadd messages score persisted) := by
  refine ⟨?_, keyed.bodies, keyed.delivers⟩
  intro other member
  cases mem_queue_zadd.mp member with
  | inl before => exact keyed.queue other before
  | inr added =>
      obtain ⟨message, _, isKey⟩ := added
      exact ⟨message.messageType, message.experimentId, isKey.symm⟩

theorem storeKeyed_retrieve (keyed : StoreKeyed store) (isKey : IsMessageKey key) (enqueueTime : ℚ) :
    StoreKeyed (store.retrieve key enqueueTime) := by
  cases retrieved : retrieveMessageContents store key with
  | none =>
      rw [retrieve_none retrieved]
      exact keyed
  | some message =>
      rw [retrieve_some retrieved]
      refine ⟨keyed.queue, keyed.bodies, ?_⟩
      intro delivery member
      cases List.mem_cons.mp member with
      | inl isNew =>
          obtain ⟨messageType, experimentId, rfl⟩ := isKey
          obtain ⟨sameType, sameId⟩ := keyed.retrieved retrieved
          rw [isNew, deliveryOf, QueueMessage.key, sameType, sameId]
      | inr before => exact keyed.delivers delivery before

/-- A step of a request keeps the keys of the store, and leaves a request with a key of a message. -/
theorem keyed_stepRequest (config : Config) (keyed : StoreKeyed store) {request : QueueRequest}
    (requestKeyed : RequestKeyed request) :
    StoreKeyed (stepRequest config store request).1 ∧
      ∀ left, (stepRequest config store request).2 = some left → RequestKeyed left := by
  cases request with
  | enqueueing commands persisted =>
      cases commands with
      | nil => exact ⟨keyed, fun left isLeft => nomatch isLeft⟩
      | cons command rest =>
          cases command with
          | set message =>
              obtain ⟨⟨isPersisted, isOwed, restOrdered⟩, areOwed⟩ := requestKeyed
              refine ⟨storeKeyed_set config keyed isPersisted, ?_⟩
              rintro left isLeft
              cases isLeft
              exact ⟨restOrdered, List.forall_mem_cons.mpr ⟨isOwed, areOwed⟩⟩
          | zadd messages score =>
              refine ⟨storeKeyed_zadd keyed messages score persisted, ?_⟩
              intro left isLeft
              cases isLeft
              exact ⟨requestKeyed.1, fun request member => nomatch member⟩
  | dequeueing =>
      rw [stepRequest]
      cases isMinimum : store.queue.minimum with
      | none => exact ⟨keyed, fun left isLeft => nomatch isLeft⟩
      | some entry =>
          obtain ⟨popped, score⟩ := entry
          have wasQueued : popped ∈ store.queue :=
            AList.lookup_isSome.mp (by rw [RedisTable.lookup_of_minimum isMinimum]; rfl)
          refine ⟨⟨?_, keyed.bodies, keyed.delivers⟩, ?_⟩
          · intro other member
            exact keyed.queue other (AList.mem_erase.mp member).2
          · intro left isLeft
            cases isLeft
            exact keyed.queue popped wasQueued
  | retrieving popped enqueueTime =>
      exact ⟨storeKeyed_retrieve keyed requestKeyed enqueueTime, fun left isLeft => nomatch isLeft⟩

end

theorem requestKeyed_receive (config : Config) (call : Call) : RequestKeyed ((server config).receive call) := by
  cases call with
  | robustEnqueue queueMessages now => exact ⟨ordered_robustEnqueue queueMessages now, fun request member => nomatch member⟩
  | dequeue => trivial

theorem keyed_next (config : Config) {before : State} (event : Event) (keyed : Keyed before) :
    Keyed (InFlight.next (server config) before event) := by
  constructor
  case requests =>
    apply InFlight.forall_next (server config) before event RequestKeyed
    · intro call _
      exact requestKeyed_receive config call
    · intro position outcome request left _ found requestKeyed isLeft
      exact (keyed_stepRequest config keyed.store requestKeyed).2 left isLeft
    · exact keyed.requests
  case store =>
    cases event with
    | receive call => exact keyed.store
    | environment seconds => exact ⟨keyed.store.queue, keyed.store.bodies, keyed.store.delivers⟩
    | step position outcome =>
        cases found : before.inFlight[position]? with
        | none =>
            rw [InFlight.next_step_none found]
            exact keyed.store
        | some request =>
            obtain ⟨front, back, _, isNext⟩ := InFlight.next_step (server config) found outcome
            have requestKeyed := keyed.requests request (List.mem_of_getElem? found)
            rw [isNext]
            exact (keyed_stepRequest config keyed.store requestKeyed).1

/-! ### What holds as long as the condition is met -/

/-- The request waits to be delivered, or was. -/
def Known (store : Store) (request : Request) : Prop :=
  request ∈ store.waiting ∨ Delivered store request

/-- A request that waits has a body that is as new and as forced, a request whose enqueue is complete is known, and
    deliveries have the force of their requests. -/
structure Waits (store : Store) : Prop where
  body : ∀ request ∈ store.waiting, isPersistedMessageType request.message.messageType = true →
    ∃ body, store.get request.message.key = some body ∧ request.serial ≤ body.serial ∧
      (request.message.force = true → body.force = true)
  serial : ∀ request ∈ store.waiting, request.serial ≤ store.serial
  completed : ∀ request ∈ store.completed, Known store request
  forced : ∀ delivery ∈ store.deliveries,
    (∃ request ∈ delivery.coalesced, request.message.force = true) → delivery.message.force = true

def RequestKnown (store : Store) : QueueRequest → Prop
  | .enqueueing _ persisted => ∀ request ∈ persisted, Known store request
  | _ => True

/-- A request whose enqueue is complete is queued, being retrieved, or delivered. -/
structure Sound (state : State) : Prop where
  store : Waits state.store
  requests : ∀ request ∈ state.inFlight, RequestKnown state.store request
  coming : ∀ request ∈ state.store.completed, request.message.key ∈ state.store.queue ∨
    BeingRetrieved state request.message.key ∨ Delivered state.store request

theorem Sound.nothingLost {state : State} (sound : Sound state) : NothingLost state := by
  refine ⟨?_, sound.store.forced⟩
  intro request isCompleted
  cases sound.store.completed request isCompleted with
  | inr isDelivered => exact Or.inr (Or.inr isDelivered)
  | inl isWaiting =>
      have readable : Readable state.store request := by
        intro isPersisted
        obtain ⟨body, isRead, asNew, _⟩ := sound.store.body request isWaiting isPersisted
        exact ⟨body, isRead, asNew⟩
      rcases sound.coming request isCompleted with isQueued | isRetrieved | isDelivered
      · exact Or.inl ⟨isQueued, readable⟩
      · exact Or.inr (Or.inl ⟨isRetrieved, readable⟩)
      · exact Or.inr (Or.inr isDelivered)

theorem RequestKnown.mono {store left : Store} {request : QueueRequest} (known : RequestKnown store request)
    (keeps : ∀ request, Known store request → Known left request) : RequestKnown left request := by
  cases request with
  | enqueueing commands persisted =>
      intro asked member
      exact keeps asked (known asked member)
  | dequeueing => trivial
  | retrieving key enqueueTime => trivial

section

variable {store : Store}

/-! #### SET -/

theorem get_set_self (config : Config) (message : QueueMessage) :
    (store.set config message).get message.key =
      some { experimentId := message.experimentId
             force := message.force
             count := message.count
             expiresAt := store.now + config.redisKeyExpiryTime
             serial := store.serial + 1 } := by
  have later : store.now < store.now + config.redisKeyExpiryTime := Nat.lt_add_of_pos_right config.isPositive
  rw [Store.get, Store.set, AList.lookup_insert, Option.filter_some]
  exact if_pos (decide_eq_true later)

theorem get_set_ne (config : Config) {message : QueueMessage} {key : Key} (isOther : key ≠ message.key) :
    (store.set config message).get key = store.get key := by
  rw [Store.get, Store.set, AList.lookup_insert_ne isOther]
  rfl

theorem known_set (config : Config) (message : QueueMessage) {request : Request} (known : Known store request) :
    Known (store.set config message) request := by
  cases known with
  | inl isWaiting => exact Or.inl (List.mem_cons_of_mem _ isWaiting)
  | inr isDelivered => exact Or.inr isDelivered

theorem waits_set (config : Config) (waits : Waits store) {message : QueueMessage}
    (met : ∀ request ∈ store.waiting, request.message.key = message.key → request.message.force = true →
      message.force = true) : Waits (store.set config message) := by
  constructor
  case body =>
    intro request isWaiting isPersisted
    cases List.mem_cons.mp isWaiting with
    | inl isNew =>
        rw [isNew]
        exact ⟨_, get_set_self config message, Nat.le_refl _, id⟩
    | inr before =>
        by_cases same : request.message.key = message.key
        · rw [same]
          exact ⟨_, get_set_self config message, Nat.le_succ_of_le (waits.serial request before),
            met request before same⟩
        · rw [get_set_ne config same]
          exact waits.body request before isPersisted
  case serial =>
    intro request isWaiting
    cases List.mem_cons.mp isWaiting with
    | inl isNew =>
        rw [isNew]
        exact Nat.le_refl _
    | inr before => exact Nat.le_succ_of_le (waits.serial request before)
  case completed =>
    intro request isCompleted
    exact known_set config message (waits.completed request isCompleted)
  case forced => exact waits.forced

/-! #### ZADD -/

section

variable (messages : List QueueMessage) (score : ℚ) (persisted : List Request)

/-- A request that is new with the ZADD is one for a message that is not persisted. -/
theorem mem_waiting_zadd {request : Request} :
    request ∈ (store.zadd messages score persisted).waiting ↔
      (∃ message ∈ messages, isPersistedMessageType message.messageType = false ∧
        request = ⟨message, store.serial + 1⟩) ∨ request ∈ store.waiting := by
  rw [Store.zadd, List.mem_append]
  apply or_congr_left
  rw [List.mem_map]
  constructor
  · intro isNew
    obtain ⟨message, member, isRequest⟩ := isNew
    obtain ⟨isMessage, isUnpersisted⟩ := List.mem_filter.mp member
    exact ⟨message, isMessage, (Bool.not_eq_true' _).mp isUnpersisted, isRequest.symm⟩
  · intro isNew
    obtain ⟨message, isMessage, isUnpersisted, isRequest⟩ := isNew
    exact ⟨message, List.mem_filter.mpr ⟨isMessage, (Bool.not_eq_true' _).mpr isUnpersisted⟩, isRequest.symm⟩

theorem mem_completed_zadd {request : Request} :
    request ∈ (store.zadd messages score persisted).completed ↔
      (∃ message ∈ messages, isPersistedMessageType message.messageType = false ∧
        request = ⟨message, store.serial + 1⟩) ∨ request ∈ persisted ∨ request ∈ store.completed := by
  have waiting := @mem_waiting_zadd { store with waiting := persisted ++ store.completed } messages score
    persisted request
  rw [← List.mem_append, ← waiting, Store.zadd, Store.zadd, List.append_assoc]

theorem known_zadd {request : Request} (known : Known store request) :
    Known (store.zadd messages score persisted) request := by
  cases known with
  | inl isWaiting => exact Or.inl ((mem_waiting_zadd messages score persisted).mpr (Or.inr isWaiting))
  | inr isDelivered => exact Or.inr isDelivered

theorem waits_zadd (waits : Waits store) (persistedKnown : ∀ request ∈ persisted, Known store request) :
    Waits (store.zadd messages score persisted) := by
  constructor
  case body =>
    intro request isWaiting isPersisted
    cases (mem_waiting_zadd messages score persisted).mp isWaiting with
    | inl isNew =>
        obtain ⟨message, _, isUnpersisted, isRequest⟩ := isNew
        rw [isRequest, isUnpersisted] at isPersisted
        exact absurd isPersisted Bool.false_ne_true
    | inr before => exact waits.body request before isPersisted
  case serial =>
    intro request isWaiting
    cases (mem_waiting_zadd messages score persisted).mp isWaiting with
    | inl isNew =>
        obtain ⟨message, _, _, isRequest⟩ := isNew
        rw [isRequest]
        exact Nat.le_refl _
    | inr before => exact Nat.le_succ_of_le (waits.serial request before)
  case completed =>
    intro request isCompleted
    rcases (mem_completed_zadd messages score persisted).mp isCompleted with isNew | isPersisted | before
    · exact Or.inl ((mem_waiting_zadd messages score persisted).mpr (Or.inl isNew))
    · exact known_zadd messages score persisted (persistedKnown request isPersisted)
    · exact known_zadd messages score persisted (waits.completed request before)
  case forced => exact waits.forced

end

/-! #### GET -/

section

variable {key : Key} {enqueueTime : ℚ}

/-- If nothing is found for a key, then no request for it waits. -/
theorem not_waiting_of_missing (waits : Waits store) (isKey : IsMessageKey key)
    (missing : retrieveMessageContents store key = none) :
    ∀ request ∈ store.waiting, request.message.key ≠ key := by
  intro request isWaiting same
  obtain ⟨messageType, experimentId, rfl⟩ := isKey
  have sameType := (messageKey_injective same).1
  by_cases isPersisted : isPersistedMessageType messageType = true
  · rw [retrieve_persisted _ _ isPersisted, Option.map_eq_none_iff] at missing
    rw [← sameType] at isPersisted
    obtain ⟨body, isRead, _⟩ := waits.body request isWaiting isPersisted
    rw [same, missing] at isRead
    exact absurd isRead (by simp)
  · rw [retrieve_unpersisted _ _ isPersisted] at missing
    exact absurd missing (by simp)

/-- What is retrieved is at least as new as the requests that wait for it. -/
theorem serial_le_freshness (keyed : StoreKeyed store) (waits : Waits store) {request : Request}
    (isWaiting : request ∈ store.waiting) : request.serial ≤ store.freshness request.message.key := by
  rw [Store.freshness]
  cases isRead : store.get request.message.key with
  | none => exact waits.serial request isWaiting
  | some body =>
      have isPersisted := (keyed.body isRead).1
      obtain ⟨waitedFor, isWaitedFor, asNew, _⟩ := waits.body request isWaiting isPersisted
      rw [isRead, Option.some.injEq] at isWaitedFor
      rw [isWaitedFor]
      exact asNew

theorem delivered_retrieve (keyed : StoreKeyed store) (waits : Waits store) {message : QueueMessage}
    {request : Request} (isWaiting : request ∈ store.waiting)
    (isRetrieved : retrieveMessageContents store request.message.key = some message) :
    Delivered (store.retrieve request.message.key enqueueTime) request := by
  obtain ⟨sameType, sameId⟩ := keyed.retrieved isRetrieved
  rw [retrieve_some isRetrieved]
  exact ⟨_, List.mem_cons_self, sameType, sameId, serial_le_freshness keyed waits isWaiting⟩

theorem Delivered.retrieve {request : Request} (isDelivered : Delivered store request) :
    Delivered (store.retrieve key enqueueTime) request := by
  cases retrieved : retrieveMessageContents store key with
  | none =>
      rw [retrieve_none retrieved]
      exact isDelivered
  | some message =>
      obtain ⟨delivery, member, isIt⟩ := isDelivered
      rw [retrieve_some retrieved]
      exact ⟨delivery, List.mem_cons_of_mem _ member, isIt⟩

/-- A request for the key is delivered by the retrieval if it was not before. -/
theorem Known.delivered_retrieve {request : Request} (known : Known store request) (keyed : StoreKeyed store)
    (waits : Waits store) : Delivered (store.retrieve request.message.key enqueueTime) request := by
  cases known with
  | inr isDelivered => exact isDelivered.retrieve
  | inl isWaiting =>
      cases retrieved : retrieveMessageContents store request.message.key with
      | none =>
          have isKey : IsMessageKey request.message.key := ⟨_, _, rfl⟩
          exact absurd rfl (not_waiting_of_missing waits isKey retrieved request isWaiting)
      | some message => exact Queue.delivered_retrieve keyed waits isWaiting retrieved

theorem known_retrieve (keyed : StoreKeyed store) (waits : Waits store) {request : Request}
    (known : Known store request) : Known (store.retrieve key enqueueTime) request := by
  by_cases same : request.message.key = key
  · rw [← same]
    exact Or.inr (known.delivered_retrieve keyed waits)
  · cases known with
    | inr isDelivered => exact Or.inr isDelivered.retrieve
    | inl isWaiting =>
        left
        cases retrieved : retrieveMessageContents store key with
        | none =>
            rw [retrieve_none retrieved]
            exact isWaiting
        | some message =>
            rw [retrieve_some retrieved]
            exact List.mem_filter.mpr ⟨isWaiting, decide_eq_true same⟩

/-- The message that is retrieved has the force of the requests that wait for it. -/
theorem forced_retrieve (waits : Waits store) (isKey : IsMessageKey key) {message : QueueMessage}
    (isRetrieved : retrieveMessageContents store key = some message) {request : Request}
    (isWaiting : request ∈ store.waiting) (same : request.message.key = key) (isForced : request.message.force = true) :
    message.force = true := by
  obtain ⟨messageType, experimentId, rfl⟩ := isKey
  by_cases isPersisted : isPersistedMessageType messageType = true
  · have requestPersisted := isPersisted
    rw [← (messageKey_injective same).1] at requestPersisted
    obtain ⟨body, isRead, _, bodyForced⟩ := waits.body request isWaiting requestPersisted
    rw [same] at isRead
    rw [retrieve_persisted _ _ isPersisted, isRead, Option.map_some, Option.some.injEq] at isRetrieved
    rw [← isRetrieved]
    exact bodyForced isForced
  · rw [retrieve_unpersisted _ _ isPersisted, Option.some.injEq] at isRetrieved
    rw [← isRetrieved]

theorem waits_retrieve (keyed : StoreKeyed store) (waits : Waits store) (isKey : IsMessageKey key) :
    Waits (store.retrieve key enqueueTime) := by
  have completedKnown : ∀ request ∈ store.completed, Known (store.retrieve key enqueueTime) request := by
    intro request isCompleted
    exact known_retrieve keyed waits (waits.completed request isCompleted)
  cases retrieved : retrieveMessageContents store key with
  | none =>
      rw [retrieve_none retrieved]
      exact waits
  | some message =>
      rw [retrieve_some retrieved] at completedKnown ⊢
      constructor
      case body =>
        intro request isWaiting
        exact waits.body request (List.mem_filter.mp isWaiting).1
      case serial =>
        intro request isWaiting
        exact waits.serial request (List.mem_filter.mp isWaiting).1
      case completed => exact completedKnown
      case forced =>
        intro delivery member hasForced
        cases List.mem_cons.mp member with
        | inr before => exact waits.forced delivery before hasForced
        | inl isNew =>
            rw [isNew] at hasForced ⊢
            obtain ⟨request, isCoalesced, isForced⟩ := hasForced
            obtain ⟨isWaiting, same⟩ := List.mem_filter.mp isCoalesced
            exact forced_retrieve waits isKey retrieved isWaiting (of_decide_eq_true same) isForced

end

/-! #### One step -/

theorem waits_stepRequest (config : Config) (keyed : StoreKeyed store) (waits : Waits store) {moving : QueueRequest}
    (requestKeyed : RequestKeyed moving) (requestKnown : RequestKnown store moving) (met : RequestMet store moving) :
    Waits (stepRequest config store moving).1 := by
  cases moving with
  | enqueueing commands persisted =>
      cases commands with
      | nil => exact waits
      | cons command rest =>
          cases command with
          | set message => exact waits_set config waits met
          | zadd messages score => exact waits_zadd messages score persisted waits requestKnown
  | dequeueing =>
      rw [stepRequest]
      cases store.queue.minimum with
      | none => exact waits
      | some entry => exact ⟨waits.body, waits.serial, waits.completed, waits.forced⟩
  | retrieving key enqueueTime => exact waits_retrieve keyed waits requestKeyed

theorem known_stepRequest (config : Config) (keyed : StoreKeyed store) (waits : Waits store) (moving : QueueRequest)
    {request : Request} (known : Known store request) : Known (stepRequest config store moving).1 request := by
  cases moving with
  | enqueueing commands persisted =>
      cases commands with
      | nil => exact known
      | cons command rest =>
          cases command with
          | set message => exact known_set config message known
          | zadd messages score => exact known_zadd messages score persisted known
  | dequeueing =>
      rw [stepRequest]
      cases store.queue.minimum with
      | none => exact known
      | some entry => exact known
  | retrieving key enqueueTime => exact known_retrieve keyed waits known

theorem requestKnown_stepRequest (config : Config) {moving left : QueueRequest}
    (requestKnown : RequestKnown store moving) (isLeft : (stepRequest config store moving).2 = some left) :
    RequestKnown (stepRequest config store moving).1 left := by
  cases moving with
  | enqueueing commands persisted =>
      cases commands with
      | nil => cases isLeft
      | cons command rest =>
          cases command with
          | set message =>
              cases isLeft
              intro request member
              cases List.mem_cons.mp member with
              | inl isNew =>
                  rw [isNew]
                  exact Or.inl List.mem_cons_self
              | inr before => exact known_set config message (requestKnown request before)
          | zadd messages score =>
              cases isLeft
              exact fun request member => nomatch member
  | dequeueing =>
      rw [stepRequest] at isLeft ⊢
      cases isMinimum : store.queue.minimum with
      | none =>
          rw [isMinimum] at isLeft
          cases isLeft
      | some entry =>
          rw [isMinimum] at isLeft
          cases isLeft
          trivial
  | retrieving key enqueueTime => cases isLeft

/-- Where a request stands whose enqueue is complete. -/
def Coming (state : State) (request : Request) : Prop :=
  request.message.key ∈ state.store.queue ∨ BeingRetrieved state request.message.key ∨ Delivered state.store request

section

variable {front back : List QueueRequest}

/-- A key that another request than the moving one retrieves is still being retrieved after the step. -/
theorem beingRetrieved_stepped {moving : QueueRequest} {key : Key} (left : Option QueueRequest) (after : Store)
    (isRetrieved : BeingRetrieved ⟨store, front ++ moving :: back⟩ key)
    (isOther : ∀ enqueueTime, moving ≠ .retrieving key enqueueTime) :
    BeingRetrieved ⟨after, front ++ left.toList ++ back⟩ key := by
  obtain ⟨enqueueTime, member⟩ := isRetrieved
  exact ⟨enqueueTime, InFlight.mem_stepped_of_ne left member (isOther enqueueTime).symm⟩

theorem coming_stepRequest (config : Config) (keyed : StoreKeyed store) {moving : QueueRequest}
    (requestKeyed : RequestKeyed moving) (sound : Sound ⟨store, front ++ moving :: back⟩) :
    ∀ request ∈ (stepRequest config store moving).1.completed,
      Coming ⟨(stepRequest config store moving).1, front ++ (stepRequest config store moving).2.toList ++ back⟩
        request := by
  intro request isCompleted
  cases moving with
  | enqueueing commands persisted =>
      have isOther : ∀ enqueueTime,
          QueueRequest.enqueueing commands persisted ≠ .retrieving request.message.key enqueueTime := by
        intro enqueueTime same
        cases same
      cases commands with
      | nil =>
          rcases sound.coming request isCompleted with isQueued | isRetrieved | isDelivered
          · exact Or.inl isQueued
          · exact Or.inr (Or.inl (beingRetrieved_stepped _ _ isRetrieved isOther))
          · exact Or.inr (Or.inr isDelivered)
      | cons command rest =>
          cases command with
          | set message =>
              rcases sound.coming request isCompleted with isQueued | isRetrieved | isDelivered
              · exact Or.inl isQueued
              · exact Or.inr (Or.inl (beingRetrieved_stepped _ _ isRetrieved isOther))
              · exact Or.inr (Or.inr isDelivered)
          | zadd messages score =>
              rcases (mem_completed_zadd messages score persisted).mp isCompleted with isNew | isPersisted | before
              · obtain ⟨message, isMessage, _, isRequest⟩ := isNew
                left
                rw [isRequest]
                exact mem_queue_zadd.mpr (Or.inr ⟨message, isMessage, rfl⟩)
              · exact Or.inl (mem_queue_zadd.mpr (Or.inr ⟨_, requestKeyed.2 request isPersisted, rfl⟩))
              · rcases sound.coming request before with isQueued | isRetrieved | isDelivered
                · exact Or.inl (mem_queue_zadd.mpr (Or.inl isQueued))
                · exact Or.inr (Or.inl (beingRetrieved_stepped _ _ isRetrieved isOther))
                · exact Or.inr (Or.inr isDelivered)
  | dequeueing =>
      have isOther : ∀ enqueueTime, QueueRequest.dequeueing ≠ .retrieving request.message.key enqueueTime := by
        intro enqueueTime same
        cases same
      cases isMinimum : store.queue.minimum with
      | none =>
          rw [stepRequest, isMinimum] at isCompleted ⊢
          rcases sound.coming request isCompleted with isQueued | isRetrieved | isDelivered
          · exact Or.inl isQueued
          · exact Or.inr (Or.inl (beingRetrieved_stepped _ _ isRetrieved isOther))
          · exact Or.inr (Or.inr isDelivered)
      | some entry =>
          obtain ⟨popped, score⟩ := entry
          rw [stepRequest, isMinimum] at isCompleted ⊢
          rcases sound.coming request isCompleted with isQueued | isRetrieved | isDelivered
          · by_cases isPopped : request.message.key = popped
            · right
              left
              rw [isPopped]
              exact ⟨score, InFlight.mem_stepped_left front back _⟩
            · exact Or.inl (AList.mem_erase.mpr ⟨isPopped, isQueued⟩)
          · exact Or.inr (Or.inl (beingRetrieved_stepped _ _ isRetrieved isOther))
          · exact Or.inr (Or.inr isDelivered)
  | retrieving key enqueueTime =>
      have wasCompleted : request ∈ store.completed := by
        cases retrieved : retrieveMessageContents store key with
        | none =>
            rw [stepRequest, retrieve_none retrieved] at isCompleted
            exact isCompleted
        | some message =>
            rw [stepRequest, retrieve_some retrieved] at isCompleted
            exact isCompleted
      have sameQueue : (store.retrieve key enqueueTime).queue = store.queue := by
        cases retrieved : retrieveMessageContents store key with
        | none => rw [retrieve_none retrieved]
        | some message => rw [retrieve_some retrieved]
      by_cases same : request.message.key = key
      · right
        right
        rw [← same]
        exact (sound.store.completed request wasCompleted).delivered_retrieve keyed sound.store
      · have isOther : ∀ time, QueueRequest.retrieving key enqueueTime ≠ .retrieving request.message.key time := by
          intro time isSame
          cases isSame
          exact same rfl
        rcases sound.coming request wasCompleted with isQueued | isRetrieved | isDelivered
        · left
          change request.message.key ∈ (store.retrieve key enqueueTime).queue
          rw [sameQueue]
          exact isQueued
        · exact Or.inr (Or.inl (beingRetrieved_stepped _ _ isRetrieved isOther))
        · exact Or.inr (Or.inr isDelivered.retrieve)

end

end

/-- The event of time keeps the bodies that are waited for. -/
theorem sound_pass {state : State} {seconds : ℕ} (sound : Sound state) (met : Met state (.environment seconds)) :
    Sound { state with store := { state.store with now := state.store.now + seconds } } := by
  refine ⟨⟨?_, sound.store.serial, sound.store.completed, sound.store.forced⟩, sound.requests, sound.coming⟩
  intro request isWaiting isPersisted
  obtain ⟨body, isRead, asNew⟩ := sound.store.body request isWaiting isPersisted
  have stillThere := met request isWaiting isPersisted body isRead
  refine ⟨body, ?_, asNew⟩
  rw [Store.get, lookup_of_get isRead, Option.filter_some]
  exact if_pos (decide_eq_true stillThere)

/-- One event keeps the invariant, where it meets the condition. -/
theorem sound_next (config : Config) {before : State} (event : Event) (keyed : Keyed before) (sound : Sound before)
    (met : Met before event) : Sound (InFlight.next (server config) before event) := by
  cases event with
  | receive call =>
      refine ⟨sound.store, ?_, ?_⟩
      · intro request member
        cases List.mem_append.mp member with
        | inl isOld => exact sound.requests request isOld
        | inr isNew =>
            rw [List.mem_singleton.mp isNew]
            cases call with
            | robustEnqueue queueMessages now => exact fun asked member => nomatch member
            | dequeue => trivial
      · intro request isCompleted
        rcases sound.coming request isCompleted with isQueued | isRetrieved | isDelivered
        · exact Or.inl isQueued
        · obtain ⟨enqueueTime, member⟩ := isRetrieved
          exact Or.inr (Or.inl ⟨enqueueTime, List.mem_append_left _ member⟩)
        · exact Or.inr (Or.inr isDelivered)
  | environment seconds => exact sound_pass sound met
  | step position outcome =>
      cases found : before.inFlight[position]? with
      | none =>
          rw [InFlight.next_step_none found]
          exact sound
      | some moving =>
          have isMoving : moving ∈ before.inFlight := List.mem_of_getElem? found
          have movingMet : RequestMet before.store moving := met moving found
          obtain ⟨front, back, split, isNext⟩ := InFlight.next_step (server config) found outcome
          have here : before = ⟨before.store, front ++ moving :: back⟩ := by
            rw [← split]
          have soundHere := sound
          rw [here] at soundHere
          rw [isNext]
          constructor
          case store =>
            exact waits_stepRequest config keyed.store sound.store (keyed.requests moving isMoving)
              (sound.requests moving isMoving) movingMet
          case requests =>
            intro request member
            cases InFlight.mem_stepped member with
            | inl isOther =>
                rw [← split] at isOther
                exact (sound.requests request isOther).mono fun _ =>
                  known_stepRequest config keyed.store sound.store moving
            | inr isLeft => exact requestKnown_stepRequest config (sound.requests moving isMoving) isLeft
          case coming => exact coming_stepRequest config keyed.store (keyed.requests moving isMoving) soundHere

/-! ### Runs -/

/-- An empty queue that nobody uses yet. -/
def initial : State := { store := {}, inFlight := [] }

theorem keyed_initial : Keyed initial := by
  refine ⟨⟨?_, ?_, ?_⟩, fun request member => nomatch member⟩
  · intro key member
    exact absurd member (AList.notMem_empty key)
  · intro key body isStored
    exact absurd isStored (by simp [initial])
  · intro delivery member
    cases member

theorem sound_initial : Sound initial := by
  refine ⟨⟨?_, ?_, ?_, ?_⟩, ?_, ?_⟩ <;> intro request member <;> cases member

/-- In every run, messages are delivered for the keys that were popped. In a run in which no body expires while a
    request waits for it, and no message without force is persisted over a waiting one with force, no request and no
    force is lost in any state. -/
theorem nothing_lost (config : Config) (events : List Event) :
    Trace.Every (fun _ _ after => DeliversWhatItPopped after) initial
        (InFlight.run (server config) initial events) ∧
      (Trace.Every (fun before event _ => Met before event) initial (InFlight.run (server config) initial events) →
        Trace.Every (fun _ _ after => NothingLost after) initial (InFlight.run (server config) initial events)) := by
  have isRun := Trace.every_play (InFlight.next (server config)) initial events
  have keepsKeyed : ∀ before event after, Keyed before → after = InFlight.next (server config) before event →
      Keyed after := by
    intro before event after keyed isNext
    rw [isNext]
    exact keyed_next config event keyed
  have allKeyed : ∀ reached ∈ Trace.reached initial (InFlight.run (server config) initial events), Keyed reached := by
    exact Trace.every_invariant keepsKeyed keyed_initial isRun
  constructor
  · rw [Trace.every_state_iff]
    intro reached member
    exact (allKeyed reached (List.mem_cons_of_mem _ member)).store.delivers
  · intro met
    have keepsSound : ∀ before event after, Keyed before ∧ Sound before →
        after = InFlight.next (server config) before event ∧ Met before event → Keyed after ∧ Sound after := by
      intro before event after both step
      rw [step.1]
      exact ⟨keyed_next config event both.1, sound_next config event both.1 both.2 step.2⟩
    have allSound : ∀ reached ∈ Trace.reached initial (InFlight.run (server config) initial events),
        Keyed reached ∧ Sound reached := by
      exact Trace.every_invariant keepsSound ⟨keyed_initial, sound_initial⟩ (Trace.every_and.mpr ⟨isRun, met⟩)
    rw [Trace.every_state_iff]
    intro reached member
    exact (allSound reached (List.mem_cons_of_mem _ member)).2.nothingLost

/-- Two requests to optimize an experiment, the second one forced, that a consumer gets as one message. -/
def forcedLast : List Event :=
  [.receive (.robustEnqueue [{ messageType := .optimize, experimentId := 1 }] 10), .step 0 (), .step 0 (),
    .receive (.robustEnqueue [{ messageType := .optimize, experimentId := 1, force := true }] 11), .step 1 (),
    .receive .dequeue, .step 2 (), .step 1 (), .step 2 ()]

/-- The second request is served by the message of the first one, which is forced when it is read. -/
theorem nothing_lost_forcedLast :
    Trace.Every (fun _ _ after => NothingLost after) initial (InFlight.run (server {}) initial forcedLast) :=
  (nothing_lost {} forcedLast).2 (by decide +kernel)

/-- Two requests to optimize an experiment, the first one forced. -/
def forcedFirst : List Event :=
  [.receive (.robustEnqueue [{ messageType := .optimize, experimentId := 1, force := true }] 10), .step 0 (), .step 0 (),
    .receive (.robustEnqueue [{ messageType := .optimize, experimentId := 1 }] 11), .step 1 (), .step 1 (),
    .receive .dequeue, .step 2 (), .step 2 ()]

/-- A request that nobody takes up for four hours. -/
def leftUntilExpired : List Event :=
  [.receive (.robustEnqueue [{ messageType := .optimize, experimentId := 1 }] 10), .step 0 (), .step 0 (),
    .environment 14400]

/-- The message that is delivered has lost the force of the first request, and the request that waits too long has
    lost its body. -/
theorem request_lost :
    ¬ Trace.Every (fun _ _ after => NothingLost after) initial (InFlight.run (server {}) initial forcedFirst) ∧
      ¬ Trace.Every (fun _ _ after => NothingLost after) initial
        (InFlight.run (server {}) initial leftUntilExpired) := by
  constructor
  · intro kept
    rw [Trace.every_state_iff] at kept
    have found : ∃ reached ∈ (InFlight.run (server {}) initial forcedFirst).map Prod.snd,
        ∃ delivery ∈ reached.store.deliveries, (∃ request ∈ delivery.coalesced, request.message.force = true) ∧
          delivery.message.force = false := by
      decide +kernel
    obtain ⟨reached, isReached, delivery, isDelivery, hasForced, notForced⟩ := found
    have isForced := (kept reached isReached).forced delivery isDelivery hasForced
    rw [notForced] at isForced
    cases isForced
  · intro kept
    rw [Trace.every_state_iff] at kept
    have found : ∃ reached ∈ (InFlight.run (server {}) initial leftUntilExpired).map Prod.snd,
        ∃ request ∈ reached.store.completed, isPersistedMessageType request.message.messageType = true ∧
          (reached.store.get request.message.key).isNone = true ∧ reached.store.deliveries.length = 0 := by
      decide +kernel
    obtain ⟨reached, isReached, request, isCompleted, isPersisted, isExpired, noDelivery⟩ := found
    have notReadable : ¬ Readable reached.store request := by
      intro readable
      obtain ⟨body, isRead, _⟩ := readable isPersisted
      rw [isRead] at isExpired
      cases isExpired
    rcases (kept reached isReached).served request isCompleted with queued | retrieved | delivered
    · exact notReadable queued.2
    · exact notReadable retrieved.2
    · obtain ⟨delivery, member, _⟩ := delivered
      rw [List.length_eq_zero_iff.mp noDelivery] at member
      cases member

end Zigopt.Queue
