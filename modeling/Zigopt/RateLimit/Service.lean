/-
Module: Zigopt.RateLimit.Service
Layer: Model
Purpose: The rate limiter (`ratelimit/service.py`) over the counters of Redis. A check reads the time, counts its
  attempt and prolongs the counter in three calls of Redis, between which any other check may run.
Main exports: RateLimitType, Config, createRateLimitKey, Call, Progress, Attempt, Service, limiter
-/
import Mathlib.Data.PNat.Defs
import Std.Data.String.ToNat
import Zigopt.Lib.ExpiringCounters
import Zigopt.Lib.InFlight
import Zigopt.Lib.Rows

namespace Zigopt.RateLimit

open ExpiringCounters

/-- What is limited; each kind has its own counters. -/
inductive RateLimitType where
  | login
  | apiTokenNonMutating
  | apiTokenMutating
  | objectEnumeration
  deriving DecidableEq, Repr

def RateLimitType.text : RateLimitType → String
  | .login => "login"
  | .apiTokenNonMutating => "token-non-mutating"
  | .apiTokenMutating => "token-mutating"
  | .objectEnumeration => "object-enumeration"

/-- The settings of the config broker that the service reads. -/
structure Config where
  maxAttemptsSetting : RateLimitType → Option ℕ
  windowLengthSetting : RateLimitType → Option ℕ+

def tenMinutesInSeconds : ℕ+ := 600

def Config.maxAttempts (config : Config) (rateLimitType : RateLimitType) : ℕ :=
  (config.maxAttemptsSetting rateLimitType).getD <|
    match rateLimitType with
    | .login => 5
    | .apiTokenNonMutating => 100
    | .apiTokenMutating => 50
    | .objectEnumeration => 10

def Config.windowLengthSeconds (config : Config) (rateLimitType : RateLimitType) : ℕ+ :=
  (config.windowLengthSetting rateLimitType).getD <|
    match rateLimitType with
    | .login => tenMinutesInSeconds
    | .apiTokenNonMutating => 1
    | .apiTokenMutating => 1
    | .objectEnumeration => tenMinutesInSeconds

/-! ### Keys -/

def divider : String := ":"

/-- `create_rate_limit_key`: kind, window and identifier, apart by the divider. -/
def createRateLimitKey (rateLimitType : RateLimitType) (time identifier : String) : String :=
  "rate-limit" ++ divider ++ rateLimitType.text ++ divider ++ time ++ divider ++ identifier

/-- The caller gives the identifier in the place of the time, and the time in that of the identifier. -/
def key (rateLimitType : RateLimitType) (identifier : String) (time : ℕ) : String :=
  createRateLimitKey rateLimitType identifier (Nat.repr time)

/-! ### Checks -/

/-- The arguments of `still_within_rate_limit`. -/
structure Call where
  rateLimitType : RateLimitType
  identifier : String
  increment : Bool
  deriving DecidableEq, Repr

/-- A check that has counted: the window it counts in, the count it was given, and when that was. -/
structure Attempt where
  call : Call
  time : ℕ
  count : ℕ
  countedAt : ℕ
  deriving DecidableEq, Repr

/-- How far a request has come: called, with its window read, or counted. -/
inductive Progress where
  | called (call : Call)
  | timed (call : Call) (time : ℕ)
  | counted (attempt : Attempt)
  deriving DecidableEq, Repr

/-- Redis, whose clock is in milliseconds, and the checks that have answered. -/
structure Service where
  redis : Store String
  answered : List Attempt

def snappedTime (config : Config) (rateLimitType : RateLimitType) (now : ℕ) : ℕ :=
  now - now % config.windowLengthSeconds rateLimitType

def Attempt.stillWithinRateLimit (config : Config) (attempt : Attempt) : Bool :=
  attempt.count ≤ config.maxAttempts attempt.call.rateLimitType

def expiryMilliseconds (config : Config) (rateLimitType : RateLimitType) : ℕ :=
  2 * config.windowLengthSeconds rateLimitType * 1000

/-- One call of Redis: the time in seconds, the count, the expiry. -/
def step (config : Config) (service : Service) : Progress → Service × Option Progress
  | .called call =>
      (service, some (.timed call (snappedTime config call.rateLimitType (service.redis.now / 1000))))
  | .timed call time =>
      let counterKey := key call.rateLimitType call.identifier time
      if call.increment then
        let redis := service.redis.increment counterKey
        ({ service with redis := redis },
          some (.counted ⟨call, time, redis.count counterKey, service.redis.now⟩))
      else (service, some (.counted ⟨call, time, service.redis.count counterKey, service.redis.now⟩))
  | .counted attempt =>
      let counterKey := key attempt.call.rateLimitType attempt.call.identifier attempt.time
      let duration := expiryMilliseconds config attempt.call.rateLimitType
      ({ redis := service.redis.expire counterKey duration, answered := service.answered ++ [attempt] }, none)

theorem step_increments {config : Config} {service : Service} {call : Call} {time : ℕ}
    (increments : call.increment = true) : step config service (.timed call time) =
      ({ service with redis := service.redis.increment (key call.rateLimitType call.identifier time) },
        some (.counted ⟨call, time, service.redis.count (key call.rateLimitType call.identifier time) + 1,
          service.redis.now⟩)) := by
  simp [step, increments, Store.count_increment_self]

theorem step_reads {config : Config} {service : Service} {call : Call} {time : ℕ}
    (reads : call.increment = false) : step config service (.timed call time) =
      (service, some (.counted ⟨call, time, service.redis.count (key call.rateLimitType call.identifier time),
        service.redis.now⟩)) := by
  simp [step, reads]

/-- Checks at the same time, while the clock goes on. -/
def limiter (config : Config) : InFlight.Server Service Call Progress Unit ℕ where
  receive := .called
  step service _ := step config service
  environment service elapsed := { service with redis := service.redis.advance elapsed }

def initial (now : ℕ) : InFlight.Configuration Service Progress where
  store := { redis := .empty now, answered := [] }
  inFlight := []

/-! ### Keys tell their parts -/

theorem last_divider_left {front other digits numerals : List Char} {between : List Char}
    (digitsPlain : ':' ∉ digits) (split : other = front ++ between)
    (same : ':' :: digits = between ++ ':' :: numerals) : front = other ∧ digits = numerals := by
  cases between with
  | nil =>
      rw [split, List.append_nil]
      exact ⟨rfl, (List.cons.inj same).2⟩
  | cons first rest =>
      have inDigits : ':' ∈ digits := by
        rw [(List.cons.inj same).2]
        exact List.mem_append_right _ List.mem_cons_self
      exact absurd inDigits digitsPlain

/-- What comes after the last divider is told from what comes before. -/
theorem last_divider {front other digits numerals : List Char} (digitsPlain : ':' ∉ digits)
    (numeralsPlain : ':' ∉ numerals) (same : front ++ ':' :: digits = other ++ ':' :: numerals) :
    front = other ∧ digits = numerals := by
  rcases List.append_eq_append_iff.mp same with ⟨between, split, rest⟩ | ⟨between, split, rest⟩
  · exact last_divider_left digitsPlain split rest
  · obtain ⟨sameFront, sameDigits⟩ := last_divider_left numeralsPlain split rest
    exact ⟨sameFront.symm, sameDigits.symm⟩

theorem repr_plain (time : ℕ) : ':' ∉ (Nat.repr time).toList := by
  intro member
  have isDigit : (':' : Char).isDigit = true :=
    Nat.isDigit_of_mem_toDigits (b := 10) (n := time) (by decide) (by decide) (by simpa [Nat.repr] using member)
  cases isDigit

theorem toList_key (rateLimitType : RateLimitType) (identifier : String) (time : ℕ) :
    (key rateLimitType identifier time).toList =
      "rate-limit:".toList ++ (rateLimitType.text.toList ++ ':' :: identifier.toList) ++ ':' ::
        (Nat.repr time).toList := by
  simp [key, createRateLimitKey, divider]

theorem type_of_text {first second : RateLimitType} {identifier other : List Char}
    (same : first.text.toList ++ ':' :: identifier = second.text.toList ++ ':' :: other) :
    first = second ∧ identifier = other := by
  cases first <;> cases second <;> simp [RateLimitType.text] at same <;> exact ⟨rfl, same⟩

/-- A counter is that of one type, one identifier and one window. -/
theorem key_injective {first second : RateLimitType} {identifier other : String} {time later : ℕ}
    (same : key first identifier time = key second other later) :
    first = second ∧ identifier = other ∧ time = later := by
  have spelled := congrArg String.toList same
  rw [toList_key, toList_key] at spelled
  obtain ⟨sameFront, sameTime⟩ := last_divider (repr_plain time) (repr_plain later) spelled
  obtain ⟨sameType, sameIdentifier⟩ := type_of_text (List.append_cancel_left sameFront)
  refine ⟨sameType, String.toList_inj.mp sameIdentifier, ?_⟩
  exact Nat.repr_injective (String.toList_inj.mp sameTime)

end Zigopt.RateLimit
