/-
Module: Zigopt.RateLimit.WindowLimit
Layer: Proofs
Purpose: Over any order of the steps of any checks: the attempts of a window that count before its counter can have
  expired are given different counts, so no more than the maximum of them pass; and no check touches the counter of
  another identifier or window.
Main exports: WindowSound, windowSound_after, window_limit, delayed_attempt
-/
import Zigopt.RateLimit.Service
import Mathlib.Data.List.Nodup
import Mathlib.Data.List.Perm.Subperm
import Mathlib.Data.List.Range

namespace Zigopt.RateLimit

open ExpiringCounters

/-- One identifier in one window of a type. -/
structure Limit where
  rateLimitType : RateLimitType
  identifier : String
  time : ℕ
  deriving DecidableEq, Repr

namespace Limit

def key (limit : Limit) : String := RateLimit.key limit.rateLimitType limit.identifier limit.time

theorem key_mk (rateLimitType : RateLimitType) (identifier : String) (time : ℕ) :
    key ⟨rateLimitType, identifier, time⟩ = RateLimit.key rateLimitType identifier time := by
  rw [key]

/-- Two window lengths after the window has begun, in milliseconds. -/
def deadline (config : Config) (limit : Limit) : ℕ :=
  (limit.time + 2 * config.windowLengthSeconds limit.rateLimitType) * 1000

end Limit

/-- The limit that an attempt counts towards. -/
def Attempt.limit (attempt : Attempt) : Limit :=
  ⟨attempt.call.rateLimitType, attempt.call.identifier, attempt.time⟩

def Progress.attempt : Progress → Option Attempt
  | .counted attempt => some attempt
  | _ => none

@[simp]
theorem attempt_called (call : Call) : (Progress.called call).attempt = none := rfl

@[simp]
theorem attempt_timed (call : Call) (time : ℕ) : (Progress.timed call time).attempt = none := rfl

@[simp]
theorem attempt_counted (attempt : Attempt) : (Progress.counted attempt).attempt = some attempt := rfl

/-- The limit that a check counts for, once it has read the time. -/
def Progress.limit : Progress → Option Limit
  | .called _ => none
  | .timed call time => some ⟨call.rateLimitType, call.identifier, time⟩
  | .counted attempt => some attempt.limit

/-- An attempt of the limit that counted before the counter can have expired. -/
def counts (config : Config) (limit : Limit) (attempt : Attempt) : Bool :=
  attempt.call.increment && attempt.limit = limit && attempt.countedAt < limit.deadline config

/-- The attempts so far, of which some have not answered yet. -/
def attempts (configuration : InFlight.Configuration Service Progress) : List Attempt :=
  configuration.inFlight.filterMap Progress.attempt ++ configuration.store.answered

/-- The attempts of a limit that have counted so far. -/
def counted (config : Config) (limit : Limit) (configuration : InFlight.Configuration Service Progress) : List Attempt :=
  (attempts configuration).filter (counts config limit)

theorem key_of_limit {first second : Limit} (same : first.key = second.key) : first = second := by
  obtain ⟨sameType, sameIdentifier, sameTime⟩ := key_injective same
  cases first
  cases second
  simp_all

/-- Before the deadline the counter of the window is there, and it is at least every count it has given. -/
structure WindowSound (config : Config) (limit : Limit) (configuration : InFlight.Configuration Service Progress) :
    Prop where
  begun : ∀ progress ∈ configuration.inFlight, progress.limit = some limit →
    limit.time * 1000 ≤ configuration.store.redis.now
  kept : KeptUntil configuration.store.redis limit.key (limit.deadline config)
  greatest : configuration.store.redis.now < limit.deadline config →
    ∀ attempt ∈ counted config limit configuration, attempt.count ≤ configuration.store.redis.count limit.key
  distinct : ((counted config limit configuration).map Attempt.count).Nodup
  positive : ∀ attempt ∈ counted config limit configuration, 1 ≤ attempt.count

section Steps

variable {config : Config} {limit : Limit}

/-- Attempts that are counted with the same counts, in another order. -/
theorem WindowSound.of_perm {before after : InFlight.Configuration Service Progress}
    (sound : WindowSound config limit before)
    (begun : ∀ progress ∈ after.inFlight, progress.limit = some limit → limit.time * 1000 ≤ after.store.redis.now)
    (kept : KeptUntil after.store.redis limit.key (limit.deadline config))
    (same : (counted config limit after).Perm (counted config limit before))
    (later : after.store.redis.now < limit.deadline config → before.store.redis.now < limit.deadline config ∧
      after.store.redis.count limit.key = before.store.redis.count limit.key) :
    WindowSound config limit after where
  begun := begun
  kept := kept
  greatest early attempt member := by
    obtain ⟨earlier, sameCount⟩ := later early
    rw [sameCount]
    exact sound.greatest earlier attempt (same.mem_iff.mp member)
  distinct := (same.map Attempt.count).nodup_iff.mpr sound.distinct
  positive attempt member := sound.positive attempt (same.mem_iff.mp member)

/-- A new attempt has the next count. -/
theorem WindowSound.of_cons {before after : InFlight.Configuration Service Progress} {new : Attempt}
    (sound : WindowSound config limit before)
    (begun : ∀ progress ∈ after.inFlight, progress.limit = some limit → limit.time * 1000 ≤ after.store.redis.now)
    (kept : KeptUntil after.store.redis limit.key (limit.deadline config))
    (added : (counted config limit after).Perm (new :: counted config limit before))
    (early : before.store.redis.now < limit.deadline config)
    (next : after.store.redis.count limit.key = before.store.redis.count limit.key + 1)
    (given : new.count = after.store.redis.count limit.key) : WindowSound config limit after where
  begun := begun
  kept := kept
  greatest _ attempt member := by
    rcases List.mem_cons.mp (added.mem_iff.mp member) with rfl | old
    · exact given.le
    · have before := sound.greatest early attempt old
      omega
  distinct := by
    rw [(added.map Attempt.count).nodup_iff, List.map_cons, List.nodup_cons]
    refine ⟨?_, sound.distinct⟩
    intro repeated
    obtain ⟨attempt, old, sameCount⟩ := List.mem_map.mp repeated
    have before := sound.greatest early attempt old
    omega
  positive attempt member := by
    rcases List.mem_cons.mp (added.mem_iff.mp member) with rfl | old
    · omega
    · exact sound.positive attempt old

theorem now_step (config : Config) (service : Service) (progress : Progress) :
    (step config service progress).1.redis.now = service.redis.now := by
  cases progress with
  | called call => rfl
  | timed call time =>
      cases increments : call.increment with
      | true => rw [step_increments increments, Store.now_increment]
      | false => rw [step_reads increments]
  | counted attempt => exact Store.now_expire _ _ _

/-- The window that a check reads has begun. -/
theorem begun_step {service : Service} {progress left : Progress}
    (begun : progress.limit = some limit → limit.time * 1000 ≤ service.redis.now)
    (stepped : (step config service progress).2 = some left) (counting : left.limit = some limit) :
    limit.time * 1000 ≤ service.redis.now := by
  cases progress with
  | called call =>
      simp only [step, Option.some.injEq] at stepped
      rw [← stepped] at counting
      have isLimit := Option.some.inj counting
      have snapped : limit.time ≤ service.redis.now / 1000 := by
        rw [← isLimit]
        exact Nat.sub_le _ _
      omega
  | timed call time =>
      refine begun ?_
      cases increments : call.increment with
      | true =>
          rw [step_increments increments, Option.some.injEq] at stepped
          rw [← stepped] at counting
          exact counting
      | false =>
          rw [step_reads increments, Option.some.injEq] at stepped
          rw [← stepped] at counting
          exact counting
  | counted attempt =>
      simp only [step] at stepped
      cases stepped

/-- A check leaves the counters of other limits as they are. -/
theorem count_step_of_ne {service : Service} {progress : Progress} (apart : progress.limit ≠ some limit) :
    (step config service progress).1.redis.count limit.key = service.redis.count limit.key := by
  cases progress with
  | called call => rfl
  | timed call time =>
      have keys : limit.key ≠ key call.rateLimitType call.identifier time := by
        intro same
        exact apart (congrArg some (@key_of_limit _ ⟨_, _, _⟩ same).symm)
      cases increments : call.increment with
      | true =>
          rw [step_increments increments]
          exact Store.count_increment_of_ne keys
      | false => rw [step_reads increments]
  | counted attempt =>
      have keys : limit.key ≠ key attempt.call.rateLimitType attempt.call.identifier attempt.time := by
        intro same
        exact apart (congrArg some (@key_of_limit _ ⟨_, _, _⟩ same).symm)
      exact Store.count_expire_of_ne keys _

theorem kept_step {service : Service} {progress : Progress}
    (begun : progress.limit = some limit → limit.time * 1000 ≤ service.redis.now)
    (kept : KeptUntil service.redis limit.key (limit.deadline config)) :
    KeptUntil (step config service progress).1.redis limit.key (limit.deadline config) := by
  cases progress with
  | called call => exact kept
  | timed call time =>
      cases increments : call.increment with
      | true =>
          rw [step_increments increments]
          exact kept.increment _
      | false =>
          rw [step_reads increments]
          exact kept
  | counted attempt =>
      change KeptUntil (service.redis.expire (key attempt.call.rateLimitType attempt.call.identifier attempt.time)
        (expiryMilliseconds config attempt.call.rateLimitType)) limit.key (limit.deadline config)
      refine kept.expire ?_
      intro same
      have isLimit : attempt.limit = limit := key_of_limit same
      have started := begun (congrArg some isLimit)
      subst isLimit
      have sum : attempt.limit.deadline config =
          attempt.time * 1000 + expiryMilliseconds config attempt.call.rateLimitType := Nat.add_mul _ _ _
      rw [sum]
      exact Nat.add_le_add_right started _

/-- The attempts after a step: what has counted is in flight or has answered. -/
theorem attempts_step {front back : List Progress} {progress : Progress} {service : Service} :
    (attempts ⟨(step config service progress).1, front ++ (step config service progress).2.toList ++ back⟩).Perm
      (((step config service progress).2.bind fun left => if progress.attempt = none then left.attempt else none).toList
        ++ attempts ⟨service, front ++ progress :: back⟩) := by
  cases progress with
  | called call => exact List.Perm.of_eq (by simp [attempts, step, List.filterMap_cons])
  | timed call time =>
      cases increments : call.increment with
      | true =>
          rw [step_increments increments]
          simp [attempts, List.filterMap_cons]
      | false =>
          rw [step_reads increments]
          simp [attempts, List.filterMap_cons]
  | counted attempt =>
      have moved : (front.filterMap Progress.attempt ++ (back.filterMap Progress.attempt ++
          (service.answered ++ [attempt]))).Perm
          (front.filterMap Progress.attempt ++ attempt :: (back.filterMap Progress.attempt ++ service.answered)) := by
        refine List.Perm.append_left _ ?_
        rw [← List.append_assoc]
        exact List.perm_append_singleton attempt _
      simpa [attempts, step, List.filterMap_cons] using moved

theorem windowSound_step {front back : List Progress} {progress : Progress} {service : Service}
    (sound : WindowSound config limit ⟨service, front ++ progress :: back⟩) :
    WindowSound config limit
      ⟨(step config service progress).1, front ++ (step config service progress).2.toList ++ back⟩ := by
  have moving : progress.limit = some limit → limit.time * 1000 ≤ service.redis.now :=
    sound.begun progress (List.mem_append_right _ List.mem_cons_self)
  have begun : ∀ other ∈ front ++ (step config service progress).2.toList ++ back, other.limit = some limit →
      limit.time * 1000 ≤ (step config service progress).1.redis.now := by
    intro other member counting
    rw [now_step]
    rcases InFlight.mem_stepped member with before | left
    · exact sound.begun other before counting
    · exact begun_step moving left counting
  have kept := @kept_step config _ _ _ moving sound.kept
  have perm := (@attempts_step config front back progress service).filter (counts config limit)
  cases progress with
  | called call =>
      exact sound.of_perm begun kept perm fun early =>
        ⟨early, @count_step_of_ne config _ _ (.called call) fun same => nomatch same⟩
  | counted attempt =>
      refine sound.of_perm begun kept perm fun early => ⟨?_, ?_⟩
      · rwa [now_step] at early
      · have lasts : 0 < expiryMilliseconds config attempt.call.rateLimitType := by
          have positive := (config.windowLengthSeconds attempt.call.rateLimitType).pos
          unfold expiryMilliseconds
          omega
        exact Store.count_expire service.redis _ limit.key lasts
  | timed call time =>
      cases increments : call.increment with
      | false =>
          rw [step_reads increments] at begun kept perm ⊢
          refine sound.of_perm begun kept (perm.trans (List.Perm.of_eq ?_)) fun early => ⟨early, rfl⟩
          simp [counts, increments, counted]
      | true =>
          rw [step_increments increments] at begun kept perm ⊢
          by_cases own : (⟨call.rateLimitType, call.identifier, time⟩ : Limit) = limit ∧
              service.redis.now < limit.deadline config
          · obtain ⟨isLimit, early⟩ := own
            have keys : key call.rateLimitType call.identifier time = limit.key := by
              rw [← isLimit, Limit.key_mk]
            have next : (service.redis.increment (key call.rateLimitType call.identifier time)).count limit.key =
                service.redis.count limit.key + 1 := by
              rw [keys, Store.count_increment_self]
            have isCounted : counts config limit ⟨call, time, service.redis.count
                (key call.rateLimitType call.identifier time) + 1, service.redis.now⟩ = true := by
              simp [counts, increments, Attempt.limit, isLimit, early]
            have added := perm.trans (List.Perm.of_eq (List.filter_cons_of_pos isCounted))
            refine sound.of_cons begun kept added early next ?_
            rw [next, keys]
          · refine sound.of_perm begun kept (perm.trans (List.Perm.of_eq ?_)) ?_
            · have uncounted : ∀ count, counts config limit ⟨call, time, count, service.redis.now⟩ = false := by
                intro count
                by_cases isLimit : (⟨call.rateLimitType, call.identifier, time⟩ : Limit) = limit
                · have late : ¬service.redis.now < limit.deadline config := fun early => own ⟨isLimit, early⟩
                  simp [counts, late]
                · simp [counts, Attempt.limit, isLimit]
              simp [uncounted, counted]
            · intro early
              have apart : key call.rateLimitType call.identifier time ≠ limit.key := by
                intro same
                exact own ⟨@key_of_limit ⟨_, _, _⟩ _ same, early⟩
              exact ⟨early, Store.count_increment_of_ne apart.symm⟩

theorem windowSound_next {configuration : InFlight.Configuration Service Progress}
    (event : InFlight.Event Call Unit ℕ) (sound : WindowSound config limit configuration) :
    WindowSound config limit (InFlight.next (limiter config) configuration event) := by
  cases event with
  | receive call =>
      have same : counted config limit (InFlight.next (limiter config) configuration (.receive call)) =
          counted config limit configuration := by
        simp [counted, attempts, InFlight.next, limiter, List.filterMap_cons]
      refine sound.of_perm ?_ sound.kept (List.Perm.of_eq same) fun early => ⟨early, rfl⟩
      intro progress member counting
      rcases List.mem_append.mp member with before | new
      · exact sound.begun progress before counting
      · rw [List.mem_singleton.mp new] at counting
        cases counting
  | environment elapsed =>
      refine sound.of_perm ?_ (sound.kept.advance elapsed) (List.Perm.refl _) fun early => ⟨?_, ?_⟩
      · intro progress member counting
        exact (sound.begun progress member counting).trans (Nat.le_add_right _ _)
      · exact (Nat.le_add_right _ elapsed).trans_lt early
      · exact sound.kept.count_advance early
  | step position outcome =>
      cases found : configuration.inFlight[position]? with
      | none =>
          rw [InFlight.next_step_none found]
          exact sound
      | some progress =>
          obtain ⟨front, back, split, isNext⟩ := InFlight.next_step (limiter config) found outcome
          rw [isNext]
          refine @windowSound_step _ _ _ _ _ configuration.store ?_
          rw [← split]
          exact sound

/-- The invariant of the windows holds after every sequence of events. -/
theorem windowSound_after (config : Config) (limit : Limit) (now : ℕ) (events : List (InFlight.Event Call Unit ℕ)) :
    WindowSound config limit (InFlight.after (limiter config) (initial now) events) := by
  refine InFlight.after_invariant _ ?_ (fun _ event sound => windowSound_next event sound) events
  exact
    { begun := fun _ member => nomatch member
      kept := keptUntil_empty now limit.key _
      greatest := fun _ _ member => nomatch member
      distinct := List.nodup_nil
      positive := fun _ member => nomatch member }

end Steps

/-- Different counts up to a bound are no more than the bound. -/
theorem length_le_of_counts {passed : List ℕ} {bound : ℕ} (distinct : passed.Nodup)
    (between : ∀ count ∈ passed, 1 ≤ count ∧ count ≤ bound) : passed.length ≤ bound := by
  have within : passed ⊆ List.range' 1 bound := by
    intro count member
    obtain ⟨least, greatest⟩ := between count member
    rw [List.mem_range'_1]
    omega
  have shorter := (List.subperm_of_subset distinct within).length_le
  rwa [List.length_range'] at shorter

/-- The checks of a limit that have answered that the attempt is within the limit. -/
def passed (config : Config) (limit : Limit) (configuration : InFlight.Configuration Service Progress) : List Attempt :=
  configuration.store.answered.filter fun attempt =>
    attempt.call.increment && attempt.limit = limit && attempt.stillWithinRateLimit config

/-- In any run, no more checks of a window pass than the maximum, of those that count within two window lengths of its
    start; and no step of a check touches the counter of another identifier or window. -/
theorem window_limit (config : Config) (limit : Limit) (now : ℕ) (events : List (InFlight.Event Call Unit ℕ)) :
    ((passed config limit (InFlight.after (limiter config) (initial now) events)).filter fun attempt =>
        attempt.countedAt < limit.deadline config).length ≤ config.maxAttempts limit.rateLimitType ∧
      ∀ (service : Service) (progress : Progress), progress.limit ≠ some limit →
        (step config service progress).1.redis.count limit.key = service.redis.count limit.key := by
  refine ⟨?_, fun service progress apart => count_step_of_ne apart⟩
  have sound := windowSound_after config limit now events
  generalize InFlight.after (limiter config) (initial now) events = configuration at sound
  have early : ((passed config limit configuration).filter fun attempt =>
        attempt.countedAt < limit.deadline config).Sublist (counted config limit configuration) := by
    have answered : ((configuration.store.answered).filter (counts config limit)).Sublist
        (counted config limit configuration) :=
      (List.sublist_append_right _ _).filter _
    refine List.Sublist.trans ?_ answered
    unfold passed
    rw [List.filter_filter]
    refine List.monotone_filter_right _ ?_
    intro attempt selected
    simp only [Bool.and_eq_true, decide_eq_true_eq] at selected
    simp [counts, selected.1, selected.2.1.1, selected.2.1.2]
  rw [← List.length_map (f := Attempt.count)]
  refine length_le_of_counts (sound.distinct.sublist (early.map Attempt.count)) ?_
  intro count member
  obtain ⟨attempt, isEarly, rfl⟩ := List.mem_map.mp member
  refine ⟨sound.positive attempt (early.subset isEarly), ?_⟩
  have isPassed := (List.mem_filter.mp (List.mem_filter.mp isEarly).1).2
  simp only [Bool.and_eq_true, decide_eq_true_eq] at isPassed
  have within : attempt.count ≤ config.maxAttempts attempt.call.rateLimitType := by
    simpa [Attempt.stillWithinRateLimit] using isPassed.2
  rw [← isPassed.1.2]
  exact within

/-! ### A check that is delayed -/

/-- One login attempt in a window of one second. -/
def oneLogin : Config where
  maxAttemptsSetting _ := some 1
  windowLengthSetting _ := some 1

def login : Call := ⟨.login, "a@b.co", true⟩

/-- Two checks read the time, one counts and answers, and the other goes on three seconds later. -/
def delayedEvents : List (InFlight.Event Call Unit ℕ) :=
  [.receive login, .receive login, .step 0 (), .step 1 (), .step 0 (), .step 0 (), .environment 3000, .step 0 (),
    .step 0 ()]

/-- Of two logins where one is allowed both pass, as the expiry comes between the check and the count of one of them.
    -/
theorem delayed_attempt :
    ¬∀ (config : Config) (limit : Limit) (now : ℕ) (events : List (InFlight.Event Call Unit ℕ)),
      (passed config limit (InFlight.after (limiter config) (initial now) events)).length ≤
          config.maxAttempts limit.rateLimitType ∧
        ∀ (service : Service) (progress : Progress), progress.limit ≠ some limit →
          (step config service progress).1.redis.count limit.key = service.redis.count limit.key := by
  intro always
  have atMost := (always oneLogin ⟨.login, "a@b.co", 0⟩ 0 delayedEvents).1
  have two : (passed oneLogin ⟨.login, "a@b.co", 0⟩
      (InFlight.after (limiter oneLogin) (initial 0) delayedEvents)).length = 2 := by
    decide +kernel
  rw [two] at atMost
  exact absurd atMost (by decide)

end Zigopt.RateLimit
