/-
Module: Zigopt.Redis.RetriedOnce
Layer: Redis
Purpose: What is left in Redis by a call that is retried: the store that its last attempt alone would leave behind,
  for every call but three. A list is pushed to once more for each attempt that took effect, and a key may outlive its
  expiry, or end before it, by a relative expiry that is set more than once.
Main exports: RetriesHarmless, retried_iff
-/
import Zigopt.Redis.Service

namespace Zigopt.Redis

open RedisKeys

/-- The times of the attempts that took effect. -/
def effectiveTimes (failures : List FailedAttempt) : List ℤ :=
  (failures.filter FailedAttempt.tookEffect).map FailedAttempt.time

/-- With what was stored before, the attempts that took effect make no difference to the last one. -/
def RetriesHarmless (call : Call) (store : Store) (failures : List FailedAttempt) (lastTime : ℤ) : Prop :=
  match call with
  | .listPush redisKey _ => ∀ time ∈ effectiveTimes failures, GoneBetween (store redisKey) time lastTime
  | .setExpire redisKey expire => ∀ entry, store redisKey = some entry → lastTime < lastTime + 1000 * expire →
      outlasts (fun time => time + 1000 * expire) entry.expiry (effectiveTimes failures ++ [lastTime]) =
        lasts lastTime entry.expiry
  | .setExpireAt redisKey expireAt => ∀ entry, store redisKey = some entry → lastTime < 1000 * expireAt →
      outlasts (fun _ => 1000 * expireAt) entry.expiry (effectiveTimes failures ++ [lastTime]) =
        lasts lastTime entry.expiry
  | _ => True

section Retry

variable {ρ : Type} {attempt : Command ρ} {failures : List FailedAttempt} {lastTime : ℤ} {store final : Store}

/-- The store before the last attempt. -/
def leftBehind (attempt : Command ρ) (failures : List FailedAttempt) (store : Store) : Store :=
  failures.foldl (fun store failed => failed.leaves attempt store) store

theorem attempt_of_retryOnFailure {retries : ℕ} {answer : Store × ρ}
    (answered : retryOnFailure attempt retries failures lastTime store = .ok answer) :
    attempt lastTime (leftBehind attempt failures store) = .ok answer := by
  induction failures generalizing retries store with
  | nil =>
      rw [retryOnFailure] at answered
      cases last : attempt lastTime store with
      | ok other =>
          rw [last] at answered
          rw [leftBehind, List.foldl_nil, last, Except.ok.inj answered]
      | error failure =>
          rw [last] at answered
          cases answered
  | cons failed rest inductionHypothesis =>
      cases retries with
      | zero => cases answered
      | succ retries => exact inductionHypothesis answered

variable {redisKey : Bytes} {command : SlotCommand ρ}

theorem live_update_self (time : ℤ) (store : Store) (slot : Slot) :
    Store.live time (Function.update store redisKey slot) redisKey = live time slot := by
  rw [Store.live, Function.update_self]

theorem live_update_other {other : Bytes} (isOther : other ≠ redisKey) (time : ℤ) (store : Store) (slot : Slot) :
    Store.live time (Function.update store redisKey slot) other = live time (store other) := by
  rw [Store.live, Function.update_of_ne isOther]

theorem onKey_of_ok {time : ℤ} {slot : Slot} {reply : ρ} (done : command time (live time (store redisKey)) = .ok (slot, reply)) :
    onKey redisKey command time store = .ok (Store.live time (Function.update store redisKey slot), reply) := by
  rw [onKey, done]
  rfl

theorem onKey_eq_ok {time : ℤ} :
    (∃ reply, onKey redisKey command time store = .ok (final, reply)) ↔
      slotAfter command time (store redisKey) = .ok (final redisKey) ∧
        ∀ other ≠ redisKey, final other = live time (store other) := by
  rw [slotAfter, Raising.map_eq_ok]
  constructor
  · rintro ⟨reply, answered⟩
    obtain ⟨⟨slot, _⟩, done, _⟩ := Raising.bind_eq_ok.mp answered
    obtain ⟨rfl, _⟩ := Prod.mk.inj (Except.ok.inj ((onKey_of_ok done).symm.trans answered))
    exact ⟨⟨_, done, (live_update_self time store slot).symm⟩, fun other isOther => live_update_other isOther time store slot⟩
  · rintro ⟨⟨⟨slot, reply⟩, done, isFinal⟩, others⟩
    refine ⟨reply, ?_⟩
    rw [onKey_of_ok done]
    have sameStore : Store.live time (Function.update store redisKey slot) = final := by
      funext key
      by_cases isKey : key = redisKey
      · rw [isKey, live_update_self, ← isFinal]
      · rw [live_update_other isKey, others key isKey]
    rw [sameStore]

/-- A failed attempt of a command on one key. -/
theorem leaves_onKey (failed : FailedAttempt) (store : Store) :
    failed.leaves (onKey redisKey command) store redisKey =
        (if failed.tookEffect then executed command (store redisKey) failed.time else store redisKey) ∧
      ∀ other ≠ redisKey, failed.leaves (onKey redisKey command) store other = store other ∨
        failed.leaves (onKey redisKey command) store other = live failed.time (store other) := by
  rw [FailedAttempt.leaves]
  cases failed.tookEffect with
  | false => exact ⟨rfl, fun _ _ => Or.inl rfl⟩
  | true =>
      rw [if_pos rfl, if_pos rfl, executed, slotAfter]
      cases done : command failed.time (live failed.time (store redisKey)) with
      | ok answer =>
          rw [onKey_of_ok done]
          exact ⟨live_update_self _ _ _, fun other isOther => Or.inr (live_update_other isOther _ _ _)⟩
      | error failure =>
          rw [onKey, done]
          exact ⟨rfl, fun _ _ => Or.inl rfl⟩

theorem effectiveTimes_cons (failed : FailedAttempt) (rest : List FailedAttempt) :
    effectiveTimes (failed :: rest) =
      if failed.tookEffect then failed.time :: effectiveTimes rest else effectiveTimes rest := by
  rw [effectiveTimes, List.filter_cons]
  split
  · rfl
  · rfl

theorem leftBehind_key (failures : List FailedAttempt) (store : Store) :
    leftBehind (onKey redisKey command) failures store redisKey =
      executeAll command (effectiveTimes failures) (store redisKey) := by
  induction failures generalizing store with
  | nil => rfl
  | cons failed rest inductionHypothesis =>
      have step : leftBehind (onKey redisKey command) (failed :: rest) store =
          leftBehind (onKey redisKey command) rest (failed.leaves (onKey redisKey command) store) := rfl
      rw [step, inductionHypothesis, (leaves_onKey failed store).1, effectiveTimes_cons]
      cases failed.tookEffect with
      | false => rfl
      | true => rfl

theorem leftBehind_other {other : Bytes} (isOther : other ≠ redisKey) (store : Store)
    (inOrder : ∀ failed ∈ failures, failed.time ≤ lastTime) :
    live lastTime (leftBehind (onKey redisKey command) failures store other) = live lastTime (store other) := by
  induction failures generalizing store with
  | nil => rfl
  | cons failed rest inductionHypothesis =>
      have step : leftBehind (onKey redisKey command) (failed :: rest) store =
          leftBehind (onKey redisKey command) rest (failed.leaves (onKey redisKey command) store) := rfl
      rw [step, inductionHypothesis _ fun later isRest => inOrder later (List.mem_cons_of_mem _ isRest)]
      rcases (leaves_onKey failed store).2 other isOther with same | alive
      · rw [same]
      · rw [alive, live_live (inOrder failed List.mem_cons_self)]

/-- Of a command on one key only what is left under the key is at stake. -/
theorem onKey_after_iff (inOrder : ∀ failed ∈ failures, failed.time ≤ lastTime) {reply : ρ}
    (last : onKey redisKey command lastTime (leftBehind (onKey redisKey command) failures store) = .ok (final, reply)) :
    (∃ reply, onKey redisKey command lastTime store = .ok (final, reply)) ↔
      slotAfter command lastTime (store redisKey) = .ok (final redisKey) := by
  obtain ⟨_, others⟩ := onKey_eq_ok.mp ⟨reply, last⟩
  rw [onKey_eq_ok, and_iff_left]
  intro other isOther
  rw [others other isOther, leftBehind_other isOther store inOrder]

theorem effectiveTimes_le (inOrder : ∀ failed ∈ failures, failed.time ≤ lastTime) :
    ∀ time ∈ effectiveTimes failures, time ≤ lastTime := by
  intro time isTime
  obtain ⟨failed, isFailed, rfl⟩ := List.mem_map.mp isTime
  exact inOrder failed (List.mem_of_mem_filter isFailed)

theorem absorbed (absorbs : Absorbs command) (inOrder : ∀ failed ∈ failures, failed.time ≤ lastTime) {reply : ρ}
    (last : onKey redisKey command lastTime (leftBehind (onKey redisKey command) failures store) = .ok (final, reply)) :
    ∃ reply, onKey redisKey command lastTime store = .ok (final, reply) := by
  rw [onKey_after_iff inOrder last, ← absorbs.executeAll (effectiveTimes_le inOrder), ← leftBehind_key]
  exact (onKey_eq_ok.mp ⟨reply, last⟩).1

end Retry

theorem absorbs_someOf {α ρ : Type} (arguments : List α) {command : SlotCommand ρ} (absorbs : Absorbs command) :
    Absorbs (someOf arguments command) := by
  cases arguments with
  | nil => exact absorbs_of_blind fun _ _ _ => rfl
  | cons first rest => exact absorbs

section Retried

variable {failures : List FailedAttempt} {lastTime : ℤ} {store final : Store}

theorem listPush_iff (inOrder : ∀ failed ∈ failures, failed.time ≤ lastTime) {redisKey : Bytes} {members : List Bytes}
    {reply : Reply} (last : (Call.listPush redisKey members).attempt lastTime
      (leftBehind (Call.listPush redisKey members).attempt failures store) = .ok (final, reply)) :
    (∃ reply, (Call.listPush redisKey members).attempt lastTime store = .ok (final, reply)) ↔
      RetriesHarmless (.listPush redisKey members) store failures lastTime := by
  rw [Call.attempt] at last ⊢
  cases members with
  | nil =>
      obtain ⟨_, refused, _⟩ := Raising.bind_eq_ok.mp last
      cases refused
  | cons member rest =>
      have pushed := (onKey_eq_ok.mp ⟨reply, last⟩).1
      rw [leftBehind_key] at pushed
      rw [onKey_after_iff inOrder last]
      exact executeAll_push_iff (List.cons_ne_nil _ _) (effectiveTimes_le inOrder) pushed

/-- Setting an expiry, relative or not. -/
theorem expireTo_iff (inOrder : (failures.map FailedAttempt.time ++ [lastTime]).Pairwise (· ≤ ·)) {redisKey : Bytes}
    {deadline : ℤ → ℤ} {answer : Bool → Reply} {reply : Reply}
    (last : onKey redisKey (expireTo deadline answer) lastTime
      (leftBehind (onKey redisKey (expireTo deadline answer)) failures store) = .ok (final, reply)) :
    (∃ reply, onKey redisKey (expireTo deadline answer) lastTime store = .ok (final, reply)) ↔
      ∀ entry, store redisKey = some entry → lastTime < deadline lastTime →
        outlasts deadline entry.expiry (effectiveTimes failures ++ [lastTime]) = lasts lastTime entry.expiry := by
  have beforeLast : ∀ failed ∈ failures, failed.time ≤ lastTime := by
    intro failed isFailed
    exact (List.pairwise_append.mp inOrder).2.2 _ (List.mem_map_of_mem isFailed) _ List.mem_cons_self
  have effectiveInOrder : (effectiveTimes failures ++ [lastTime]).Pairwise (· ≤ ·) := by
    apply List.Pairwise.sublist _ inOrder
    exact (List.filter_sublist.map _).append (List.Sublist.refl _)
  have set := (onKey_eq_ok.mp ⟨reply, last⟩).1
  rw [leftBehind_key] at set
  rw [onKey_after_iff beforeLast last]
  cases there : store redisKey with
  | none =>
      rw [there, executeAll_expireTo_none] at set
      exact iff_of_true set fun entry impossible => nomatch impossible
  | some entry =>
      rw [there] at set
      rw [executeAll_expireTo_iff effectiveInOrder set]
      constructor
      · intro same other isOther
        rw [← Option.some.inj isOther]
        exact same
      · exact fun same => same entry rfl

theorem leftBehind_onServer (answer : ℤ → Reply) (inOrder : ∀ failed ∈ failures, failed.time ≤ lastTime)
    (store : Store) : (leftBehind (onServer answer) failures store).live lastTime = store.live lastTime := by
  induction failures generalizing store with
  | nil => rfl
  | cons failed rest inductionHypothesis =>
      have step : leftBehind (onServer answer) (failed :: rest) store =
          leftBehind (onServer answer) rest (failed.leaves (onServer answer) store) := rfl
      rw [step, inductionHypothesis fun later isRest => inOrder later (List.mem_cons_of_mem _ isRest),
        FailedAttempt.leaves]
      cases failed.tookEffect with
      | false => rfl
      | true =>
          funext key
          exact live_live (inOrder failed List.mem_cons_self) (store key)

theorem onServer_unchanged (answer : ℤ → Reply) (inOrder : ∀ failed ∈ failures, failed.time ≤ lastTime) {reply : Reply}
    (last : onServer answer lastTime (leftBehind (onServer answer) failures store) = .ok (final, reply)) :
    ∃ reply, onServer answer lastTime store = .ok (final, reply) := by
  obtain ⟨rfl, _⟩ := Prod.mk.inj (Except.ok.inj last)
  exact ⟨answer lastTime, by rw [onServer, leftBehind_onServer answer inOrder]⟩

theorem union_twice (members : List Bytes) (set : Finset Bytes) :
    set ∪ members.toFinset ∪ members.toFinset = set ∪ members.toFinset := by
  rw [Finset.union_assoc, Finset.union_self]

/-- A retried call leaves the store that its last attempt alone would leave exactly if the attempts that took effect
are harmless, which they always are for all calls but a push to a list and the two that set an expiry. -/
theorem retried_iff {call : Call} {numRetries : ℤ} {reply : Reply}
    (inOrder : (failures.map FailedAttempt.time ++ [lastTime]).Pairwise (· ≤ ·))
    (answered : call.run numRetries failures lastTime store = .ok (final, reply)) :
    (∃ reply, call.attempt lastTime store = .ok (final, reply)) ↔
      RetriesHarmless call store failures lastTime := by
  have last := attempt_of_retryOnFailure answered
  have beforeLast : ∀ failed ∈ failures, failed.time ≤ lastTime := by
    intro failed isFailed
    exact (List.pairwise_append.mp inOrder).2.2 _ (List.mem_map_of_mem isFailed) _ List.mem_cons_self
  have unchanged : ∀ {redisKey : Bytes} {command : SlotCommand Reply}, call.attempt = onKey redisKey command →
      Absorbs command → ∃ reply, call.attempt lastTime store = .ok (final, reply) := by
    intro redisKey command isCommand absorbs
    rw [isCommand] at last ⊢
    exact absorbed absorbs beforeLast last
  cases call with
  | get redisKey => exact iff_of_true (unchanged rfl (absorbs_getString _)) trivial
  | set redisKey value expiryTime => exact iff_of_true (unchanged rfl (absorbs_setString _ _ _)) trivial
  | setExpireAt redisKey expireAt => exact expireTo_iff inOrder last
  | setExpire redisKey expire => exact expireTo_iff inOrder last
  | «exists» redisKey => exact iff_of_true (unchanged rfl (absorbs_keyExists _)) trivial
  | countSortedSet redisKey => exact iff_of_true (unchanged rfl (absorbs_look _ _)) trivial
  | countList redisKey => exact iff_of_true (unchanged rfl (absorbs_look _ _)) trivial
  | addSortedSetNew redisKey memberScoreTuples =>
      exact iff_of_true (unchanged rfl (absorbs_someOf _ (absorbs_edit _ (Table.addNew_addNew _) _))) trivial
  | getSortedSetRange redisKey minIndex maxIndex reverse withscores =>
      exact iff_of_true (unchanged rfl (absorbs_look _ _)) trivial
  | removeFromSortedSet redisKey members =>
      cases members with
      | nil => exact iff_of_true (onServer_unchanged _ beforeLast last) trivial
      | cons first rest =>
          exact iff_of_true (unchanged rfl (absorbs_edit _ (Table.removeAll_removeAll _) _)) trivial
  | listPush redisKey members => exact listPush_iff beforeLast last
  | addToSet redisKey members =>
      exact iff_of_true (unchanged rfl (absorbs_someOf _ (absorbs_edit _ (union_twice _) _))) trivial
  | getSetMembers redisKey => exact iff_of_true (unchanged rfl (absorbs_look _ _)) trivial
  | setHashFields redisKey mapping =>
      exact iff_of_true (unchanged rfl (absorbs_someOf _ (absorbs_edit _ (Table.setAll_setAll _) _))) trivial
  | getAllHashFields redisKey lengthHint => exact iff_of_true (unchanged rfl (absorbs_look _ _)) trivial
  | getTime withMicroseconds => exact iff_of_true (onServer_unchanged _ beforeLast last) trivial
  | removeFromHash redisKey fields =>
      exact iff_of_true (unchanged rfl (absorbs_someOf _ (absorbs_edit _ (Table.removeAll_removeAll _) _))) trivial
  | delete redisKey => exact iff_of_true (unchanged rfl (absorbs_deleteKey _)) trivial
  | dangerouslyPurgeDatabase =>
      obtain ⟨rfl, _⟩ := Prod.mk.inj (Except.ok.inj last)
      exact iff_of_true ⟨.boolean true, rfl⟩ trivial

end Retried

/-- A set has its new member once, when an attempt took effect before the one that is answered. -/
theorem added_once : ∃ final reply,
    (Call.addToSet [1] [[2]]).run 1 [⟨0, true⟩] 1000 (fun _ => none) = .ok (final, reply) ∧
      ∃ reply, (Call.addToSet [1] [[2]]).attempt 1000 (fun _ => none) = .ok (final, reply) := by
  have inOrder : (([⟨0, true⟩] : List FailedAttempt).map FailedAttempt.time ++ [1000]).Pairwise (· ≤ ·) := by decide
  have answered : (Call.addToSet [1] [[2]]).run 1 [⟨0, true⟩] 1000 (fun _ => none) = .ok (_, _) := rfl
  exact ⟨_, _, answered, (retried_iff inOrder answered).mpr trivial⟩

/-- A list has it twice. -/
theorem pushed_twice : ∃ final reply,
    (Call.listPush [1] [[2]]).run 1 [⟨0, true⟩] 1000 (fun _ => none) = .ok (final, reply) ∧
      ¬∃ reply, (Call.listPush [1] [[2]]).attempt 1000 (fun _ => none) = .ok (final, reply) := by
  refine ⟨_, _, rfl, ?_⟩
  rintro ⟨reply, alone⟩
  have slots := congrFun (Prod.mk.inj (Except.ok.inj alone)).1 [1]
  exact absurd slots (by decide)

end Zigopt.Redis
