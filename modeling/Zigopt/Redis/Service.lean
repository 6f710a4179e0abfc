/-
Module: Zigopt.Redis.Service
Layer: Redis
Purpose: The methods of the Redis service that are retried on failure (`redis/service.py`), each one command, and the
  wrapper that runs them again. An attempt that fails for the caller may still have taken effect on the server.
Main exports: Call, Call.attempt, FailedAttempt, retryOnFailure
-/
import Mathlib.Data.Rat.Floor
import Zigopt.Lib.RedisKeys

namespace Zigopt.Redis

open RedisKeys

inductive Reply where
  | none
  | boolean (value : Bool)
  | number (value : ℚ)
  | bytes (value : Bytes)
  | members (members : List Bytes)
  | scored (members : List (Bytes × ℚ))
  | set (members : Finset Bytes)
  | hash (fields : Table Bytes)

/-- A call of a method. Keys are given by their texts, and times and durations in seconds. -/
inductive Call where
  | get (redisKey : Bytes)
  | set (redisKey value : Bytes) (expiryTime : Option ℤ)
  | setExpireAt (redisKey : Bytes) (expireAt : ℤ)
  | setExpire (redisKey : Bytes) (expire : ℤ)
  | exists (redisKey : Bytes)
  | countSortedSet (redisKey : Bytes)
  | countList (redisKey : Bytes)
  | addSortedSetNew (redisKey : Bytes) (memberScoreTuples : List (Bytes × ℚ))
  | getSortedSetRange (redisKey : Bytes) (minIndex maxIndex : ℤ) (reverse withscores : Bool)
  | removeFromSortedSet (redisKey : Bytes) (members : List Bytes)
  | listPush (redisKey : Bytes) (members : List Bytes)
  | addToSet (redisKey : Bytes) (members : List Bytes)
  | getSetMembers (redisKey : Bytes)
  | setHashFields (redisKey : Bytes) (mapping : List (Bytes × Bytes))
  | getAllHashFields (redisKey : Bytes) (lengthHint : Option ℕ)
  | getTime (withMicroseconds : Bool)
  | removeFromHash (redisKey : Bytes) (fields : List Bytes)
  | delete (redisKey : Bytes)
  | dangerouslyPurgeDatabase

/-- The reply of a command that counts. -/
def count (number : ℕ) : Reply := .number number

/-- The elements from one index to another, where a negative one counts from the end. -/
def indexRange {α : Type} (minIndex maxIndex : ℤ) (elements : List α) : List α :=
  let start := if minIndex < 0 then max (elements.length + minIndex) 0 else minIndex
  let stop := if maxIndex < 0 then elements.length + maxIndex else maxIndex
  (elements.drop start.toNat).take (stop - start + 1).toNat

/-- The reply to ZRANGE and ZREVRANGE. -/
def sortedSetRange (minIndex maxIndex : ℤ) (reverse withscores : Bool) (scores : Table ℚ) : Reply :=
  let inOrder := if reverse then scores.ranked.reverse else scores.ranked
  let range := (indexRange minIndex maxIndex inOrder).map ofLex
  if withscores then .scored (range.map Prod.swap) else .members (range.map Prod.snd)

/-- A command with a list of arguments that may not be empty. -/
def someOf {α ρ : Type} (arguments : List α) (command : SlotCommand ρ) : SlotCommand ρ :=
  match arguments with
  | [] => fun _ _ => .error .arguments
  | _ :: _ => command

/-- A command that does not name a key. -/
def onServer (reply : ℤ → Reply) : Command Reply := fun time store => .ok (store.live time, reply time)

/-- The reply to TIME, from the clock of the server in milliseconds. -/
def serverTime (withMicroseconds : Bool) (time : ℤ) : Reply :=
  if withMicroseconds then .number (time / 1000) else .number (time / 1000 : ℤ)

/-- What one attempt of a call does. -/
def Call.attempt : Call → Command Reply
  | .get redisKey => onKey redisKey (getString fun value => value.elim .none .bytes)
  | .set redisKey value expiryTime => onKey redisKey (setString value expiryTime (.boolean true))
  | .setExpireAt redisKey expireAt => onKey redisKey (expireTo (fun _ => 1000 * expireAt) .boolean)
  | .setExpire redisKey expire => onKey redisKey (expireTo (fun time => time + 1000 * expire) .boolean)
  | .exists redisKey => onKey redisKey (keyExists .boolean)
  | .countSortedSet redisKey => onKey redisKey (sortedSetKind.look fun scores => count scores.keys.card)
  | .countList redisKey => onKey redisKey (listKind.look fun list => count list.length)
  | .addSortedSetNew redisKey memberScoreTuples =>
      onKey redisKey (someOf memberScoreTuples (sortedSetKind.edit (Table.addNew memberScoreTuples) fun scores =>
        count (memberScoreTuples.filter fun item => item.1 ∉ scores).length))
  | .getSortedSetRange redisKey minIndex maxIndex reverse withscores =>
      onKey redisKey (sortedSetKind.look (sortedSetRange minIndex maxIndex reverse withscores))
  | .removeFromSortedSet _ [] => onServer fun _ => count 0
  | .removeFromSortedSet redisKey members =>
      onKey redisKey (sortedSetKind.edit (Table.removeAll members) fun scores =>
        count (members.toFinset ∩ scores.keys).card)
  | .listPush redisKey members =>
      onKey redisKey (someOf members (push members fun list => count (list.length + members.length)))
  | .addToSet redisKey members =>
      onKey redisKey (someOf members (setKind.edit (fun set => set ∪ members.toFinset) fun set =>
        count (members.toFinset \ set).card))
  | .getSetMembers redisKey => onKey redisKey (setKind.look .set)
  | .setHashFields redisKey mapping =>
      onKey redisKey (someOf mapping (hashKind.edit (Table.setAll mapping) fun fields =>
        count (mapping.filter fun item => item.1 ∉ fields).length))
  | .getAllHashFields redisKey _ => onKey redisKey (hashKind.look .hash)
  | .getTime withMicroseconds => onServer (serverTime withMicroseconds)
  | .removeFromHash redisKey fields =>
      onKey redisKey (someOf fields (hashKind.edit (Table.removeAll fields) fun table =>
        count (fields.toFinset ∩ table.keys).card))
  | .delete redisKey => onKey redisKey (deleteKey fun there => count (if there then 1 else 0))
  | .dangerouslyPurgeDatabase => fun _ _ => .ok (fun _ => none, .boolean true)

/-- An attempt that fails for the caller, at a time of the server. -/
structure FailedAttempt where
  time : ℤ
  tookEffect : Bool
deriving DecidableEq, Repr

inductive Failure where
  | refused (error : RedisError)
  | noAnswer
deriving DecidableEq, Repr

section Retry

variable {ρ : Type} (attempt : Command ρ)

/-- The store that is left behind by an attempt that fails for the caller. -/
def FailedAttempt.leaves (failed : FailedAttempt) (store : Store) : Store :=
  if failed.tookEffect then
    match attempt failed.time store with
    | .ok (next, _) => next
    | .error _ => store
  else
    store

/-- `retry_on_failure`: attempts fail until one is answered, or until there is none left. -/
def retryOnFailure : ℕ → List FailedAttempt → ℤ → Store → Except Failure (Store × ρ)
  | _, [], lastTime, store => (attempt lastTime store).mapError .refused
  | 0, _ :: _, _, _ => .error .noAnswer
  | retries + 1, failed :: failures, lastTime, store =>
      retryOnFailure retries failures lastTime (failed.leaves attempt store)

end Retry

/-- A call with `redis.num_retries` retries. -/
def Call.run (call : Call) (numRetries : ℤ) (failures : List FailedAttempt) (lastTime : ℤ) (store : Store) :
    Except Failure (Store × Reply) :=
  retryOnFailure call.attempt (max numRetries 0).toNat failures lastTime store

end Zigopt.Redis
