/-
Module: Zigopt.Billing.CountAgreement
Layer: Proofs
Purpose: When the cached experiment counts are the true ones, over every order of the calls that creations
  and counts make. What is kept is an account for each key: a cached count and the creations that still are
  to increment it add up to the experiments that count. A count on its way to the cache is accounted for by
  its query: it is the true count of the experiments that the query found in the database, less those that a
  lenient query leaves out.
Main exports: trueCount, CacheExact, Accounted, Counted, Met, consistent_next, cached_count_exact,
  cached_count_wrong
-/
import Mathlib.Tactic.Common
import Zigopt.Billing.Counter

namespace Zigopt.Billing

/-- Whether an experiment counts for an organization: over all time, or in one billing period. -/
def countable (organizationId : Nat) (period : Option TimeInterval) (experiment : Experiment) : Bool :=
  experiment.organizationId == organizationId && !experiment.development &&
    match period with
    | none => true
    | some interval =>
        decide (interval.start ≤ experiment.dateCreated) && decide (experiment.dateCreated < interval.finish)

/-- How many stored experiments of the organization the period counts. -/
def trueCount (experiments : List Experiment) (organizationId : Nat) (period : Option TimeInterval) : Nat :=
  experiments.countP (countable organizationId period)

/-- A billing calendar says which period starts in a second, as a key can tell no more than that. -/
def OfCalendar (calendar : Int → TimeInterval) : Option TimeInterval → Prop
  | none => True
  | some interval => interval = calendar (datetimeToSeconds interval.start)

/-- Every cached count is the true one. -/
def CacheExact (calendar : Int → TimeInterval) (store : Store) : Prop :=
  ∀ organizationId period, OfCalendar calendar period →
    ∀ entry, store.cache (keyOf organizationId period) = some entry →
      entry.count = trueCount store.experiments organizationId period

/-- The requests that are to increment the key as long as it exists. -/
def increments (key : Key) : Request → Bool
  | .keyExists organizationId timeInterval => keyOf organizationId timeInterval == key
  | .increment organizationId timeInterval => keyOf organizationId timeInterval == key
  | _ => false

def waiting (inFlight : List Request) (key : Key) : Nat :=
  inFlight.countP (increments key)

def Balanced (cached : Option Entry) (waiting total : Nat) : Prop :=
  ∀ entry, cached = some entry → entry.count + waiting = total

/-- Every key of the calendar is off by what the requests in flight still owe it, and by no more. -/
def Accounted (calendar : Int → TimeInterval) (state : State) : Prop :=
  ∀ organizationId period, OfCalendar calendar period →
    Balanced (state.store.cache (keyOf organizationId period)) (waiting state.inFlight (keyOf organizationId period))
      (trueCount state.store.experiments organizationId period)

/-- The period that a request counts in. -/
def Request.period : Request → Option TimeInterval
  | .insert _ => none
  | .keyExists _ timeInterval => timeInterval
  | .increment _ timeInterval => timeInterval
  | .get _ timeInterval => timeInterval
  | .count _ timeInterval _ => timeInterval
  | .set _ timeInterval _ _ _ => timeInterval
  | .setExpireAt _ timeInterval _ => timeInterval

/-- The experiments that count, but that a lenient query leaves out: those with no more observations than
    parameters. -/
def leftOut (experiments : List Experiment) (organizationId : Nat) (period : Option TimeInterval)
    (lenient : Bool) : Nat :=
  experiments.countP fun experiment =>
    lenient && !decide (experiment.allParameters < experiment.observations) &&
      countable organizationId period experiment

/-- The experiments that were inserted after there were those of `asOf`. -/
def insertedSince (asOf experiments : List Experiment) : List Experiment :=
  experiments.drop asOf.length

/-- What a count that is about to be stored has to do with the database: it is a count of the experiments
    that were there, and they still are. -/
def Counted (experiments : List Experiment) : Request → Prop
  | .insert _ => True
  | .keyExists _ _ => True
  | .increment _ _ => True
  | .get _ _ => True
  | .count _ _ _ => True
  | .set organizationId timeInterval count asOf lenient =>
      count + leftOut asOf organizationId timeInterval lenient = trueCount asOf organizationId timeInterval ∧
        asOf.length ≤ experiments.length ∧
        trueCount (experiments.take asOf.length) organizationId timeInterval =
          trueCount asOf organizationId timeInterval
  | .setExpireAt _ _ _ => True

structure Consistent (calendar : Int → TimeInterval) (state : State) : Prop where
  accounted : Accounted calendar state
  ofCalendar : ∀ request ∈ state.inFlight, OfCalendar calendar request.period
  counted : ∀ request ∈ state.inFlight, Counted state.store.experiments request

/-- What keeps the account of a step of a request. A countable experiment is inserted while no billing
    period that it falls in has a cached count, for its creation increments the key without a period only.
    Redis fails a creation only when the key is not cached. A key that is gone by the time it is incremented
    is one whose experiments all wait to be counted. A count is stored when as many creations wait as
    countable experiments were inserted since its query ran, beside those that the query left out. -/
def RequestMet (calendar : Int → TimeInterval) (state : State) (raises : Bool) : Request → Prop
  | .insert experiment =>
      raises = false → ∀ interval, OfCalendar calendar (some interval) →
        countable experiment.organizationId (some interval) experiment = true →
        state.store.cache (keyOf experiment.organizationId (some interval)) = none
  | .keyExists organizationId timeInterval =>
      raises = true → state.store.cache (keyOf organizationId timeInterval) = none
  | .increment organizationId timeInterval =>
      (raises = true → state.store.cache (keyOf organizationId timeInterval) = none) ∧
        (raises = false → state.store.cache (keyOf organizationId timeInterval) = none →
          waiting state.inFlight (keyOf organizationId timeInterval) =
            trueCount state.store.experiments organizationId timeInterval)
  | .set organizationId timeInterval _ asOf lenient =>
      raises = false →
        waiting state.inFlight (keyOf organizationId timeInterval) =
          trueCount (insertedSince asOf state.store.experiments) organizationId timeInterval +
            leftOut asOf organizationId timeInterval lenient
  | .get _ _ => True
  | .count _ _ _ => True
  | .setExpireAt _ _ _ => True

/-- What keeps the account of an event. Counts are asked for periods of the calendar. -/
def Met (calendar : Int → TimeInterval) (state : State) : Event → Prop
  | .receive (.create _) => True
  | .receive (.countByOrganizationIdForBilling _ timeInterval _ _) => OfCalendar calendar timeInterval
  | .step position raises => ∀ request, state.inFlight[position]? = some request →
      RequestMet calendar state raises request
  | .environment _ => True

/-! ### The query and the keys -/

/-- The filter on `date_updated` leaves out no experiment, as an experiment is not updated before it is
    created. -/
theorem queryByOrganizationIdForBilling_eq (experiments : List Experiment) (organizationId : Nat)
    (period : Option TimeInterval) (lenient : Bool) :
    queryByOrganizationIdForBilling experiments organizationId period lenient =
      (experiments.filter (countable organizationId period)).filter fun experiment =>
        !(lenient && !decide (experiment.allParameters < experiment.observations)) := by
  rw [queryByOrganizationIdForBilling, List.filter_filter]
  apply List.filter_congr
  intro experiment _
  cases period with
  | none => simp [countable, Bool.and_comm]
  | some interval =>
      have updated : interval.start ≤ experiment.dateCreated → interval.start ≤ experiment.dateUpdated :=
        fun created => Int.le_trans created experiment.createdFirst
      by_cases created : interval.start ≤ experiment.dateCreated
      · simp [countable, created, updated created, Bool.and_comm, Bool.and_assoc, Bool.and_left_comm]
      · simp [countable, created]

/-- What the query counts and what it leaves out are the experiments that count. -/
theorem queryByOrganizationIdForBilling_length (experiments : List Experiment) (organizationId : Nat)
    (period : Option TimeInterval) (lenient : Bool) :
    (queryByOrganizationIdForBilling experiments organizationId period lenient).length +
        leftOut experiments organizationId period lenient = trueCount experiments organizationId period := by
  rw [queryByOrganizationIdForBilling_eq, leftOut, trueCount, ← List.countP_filter,
    List.countP_eq_length_filter (p := countable organizationId period), ← List.countP_eq_length_filter]
  have parts := List.length_eq_countP_add_countP
    (fun experiment : Experiment => lenient && !decide (experiment.allParameters < experiment.observations))
    (l := experiments.filter (countable organizationId period))
  simp only [Bool.not_eq_true, Bool.decide_eq_false] at parts
  omega

/-- Keys of different organizations or periods differ. -/
theorem keyOf_injective {calendar : Int → TimeInterval} {organizationId other : Nat}
    {period otherPeriod : Option TimeInterval} (ofCalendar : OfCalendar calendar period)
    (otherOfCalendar : OfCalendar calendar otherPeriod)
    (same : keyOf organizationId period = keyOf other otherPeriod) :
    organizationId = other ∧ period = otherPeriod := by
  rw [keyOf, keyOf, createExperimentCountByOrgBillingKey, createExperimentCountByOrgBillingKey,
    Key.mk.injEq, Option.map_map, Option.map_map] at same
  rcases same with ⟨sameOrganization, sameStart⟩
  refine ⟨sameOrganization, ?_⟩
  cases period with
  | none =>
      cases otherPeriod with
      | none => rfl
      | some interval => cases sameStart
  | some interval =>
      cases otherPeriod with
      | none => cases sameStart
      | some otherInterval =>
          have sameSecond : datetimeToSeconds interval.start = datetimeToSeconds otherInterval.start :=
            Option.some.inj sameStart
          rw [OfCalendar] at ofCalendar otherOfCalendar
          rw [ofCalendar, otherOfCalendar, sameSecond]

theorem trueCount_append (experiments : List Experiment) (experiment : Experiment) (organizationId : Nat)
    (period : Option TimeInterval) :
    trueCount (experiments ++ [experiment]) organizationId period =
      trueCount experiments organizationId period +
        (if countable organizationId period experiment then 1 else 0) := by
  simp [trueCount, List.countP_append, List.countP_cons]

theorem countable_observe (organizationId : Nat) (period : Option TimeInterval) (experiment : Experiment)
    (later : Nat) :
    countable organizationId period (experiment.observe later) = countable organizationId period experiment :=
  rfl

/-- Experiments that go on count as before. -/
theorem trueCount_modify (experiments : List Experiment) (position later organizationId : Nat)
    (period : Option TimeInterval) :
    trueCount (experiments.modify position fun experiment => experiment.observe later) organizationId period =
      trueCount experiments organizationId period := by
  induction experiments generalizing position with
  | nil => cases position <;> rfl
  | cons first rest inductionHypothesis =>
      cases position with
      | zero =>
          simp only [List.modify_zero_cons, trueCount, List.countP_cons, countable_observe]
          rfl
      | succ position =>
          have later := inductionHypothesis position
          rw [trueCount, trueCount] at later
          simp [trueCount, List.countP_cons, later]

/-! ### Counts that are about to be stored -/

/-- The count of a query that has just run. -/
theorem counted_query (experiments : List Experiment) (organizationId : Nat) (period : Option TimeInterval)
    (lenient : Bool) :
    Counted experiments (.set organizationId period
      (queryByOrganizationIdForBilling experiments organizationId period lenient).length experiments lenient) := by
  refine ⟨queryByOrganizationIdForBilling_length experiments organizationId period lenient, Nat.le_refl _, ?_⟩
  rw [List.take_length]

theorem counted_append {experiments : List Experiment} {request : Request}
    (counted : Counted experiments request) (more : List Experiment) :
    Counted (experiments ++ more) request := by
  cases request with
  | set organizationId timeInterval count asOf lenient =>
      rcases counted with ⟨returned, earlier, stillThere⟩
      refine ⟨returned, ?_, ?_⟩
      · rw [List.length_append]
        exact Nat.le_add_right_of_le earlier
      · rw [List.take_append_of_le_length earlier]
        exact stillThere
  | _ => trivial

theorem counted_modify {experiments : List Experiment} {request : Request}
    (counted : Counted experiments request) (position later : Nat) :
    Counted (experiments.modify position fun experiment => experiment.observe later) request := by
  cases request with
  | set organizationId timeInterval count asOf lenient =>
      rcases counted with ⟨returned, earlier, stillThere⟩
      refine ⟨returned, ?_, ?_⟩
      · rw [List.length_modify]
        exact earlier
      · rw [List.take_modify, trueCount_modify]
        exact stillThere
  | _ => trivial

/-- What a count on its way to the cache lacks: the experiments inserted since, and those left out. -/
theorem trueCount_of_counted {experiments asOf : List Experiment} {organizationId count : Nat}
    {timeInterval : Option TimeInterval} {lenient : Bool}
    (counted : Counted experiments (.set organizationId timeInterval count asOf lenient)) :
    trueCount experiments organizationId timeInterval =
      count + (trueCount (insertedSince asOf experiments) organizationId timeInterval +
        leftOut asOf organizationId timeInterval lenient) := by
  rcases counted with ⟨returned, -, stillThere⟩
  have parts : trueCount experiments organizationId timeInterval =
      trueCount (experiments.take asOf.length) organizationId timeInterval +
        trueCount (insertedSince asOf experiments) organizationId timeInterval := by
    rw [trueCount, trueCount, trueCount, insertedSince, ← List.countP_append, List.take_append_drop]
  omega

/-! ### The account of a step

A step replaces one request by what is left of it: nothing, or the next call. -/

section Step

variable {calendar : Int → TimeInterval} {store store' : Store} {front back : List Request}
  {request : Request} {left : Option Request}

theorem balanced_some (entry : Entry) (waiting total : Nat) :
    Balanced (some entry) waiting total ↔ entry.count + waiting = total := by
  constructor
  · intro balanced
    exact balanced entry rfl
  · intro sum other cached
    cases cached
    exact sum

theorem waiting_step (front back : List Request) (request : Request) (left : Option Request) (key : Key) :
    waiting (front ++ left.toList ++ back) key + waiting [request] key =
      waiting (front ++ request :: back) key + waiting left.toList key := by
  have counted := InFlight.countP_step front back request left (increments key)
  simpa [waiting, List.countP_cons] using counted

/-- A step that leaves the counts, the experiments and the waiting creations alone. -/
theorem accounted_quiet (left : Option Request)
    (sameCached : ∀ key waiting total, Balanced (store'.cache key) waiting total ↔
      Balanced (store.cache key) waiting total)
    (sameCount : ∀ organizationId period, trueCount store'.experiments organizationId period =
      trueCount store.experiments organizationId period)
    (sameWaiting : ∀ key, waiting left.toList key = waiting [request] key) :
    Accounted calendar ⟨store', front ++ left.toList ++ back⟩ ↔
      Accounted calendar ⟨store, front ++ request :: back⟩ := by
  have waitingAfter : ∀ key, waiting (front ++ left.toList ++ back) key =
      waiting (front ++ request :: back) key := by
    intro key
    have step := waiting_step front back request left key
    rw [sameWaiting key] at step
    exact Nat.add_right_cancel step
  constructor
  · intro accounted organizationId period ofCalendar
    have after := accounted organizationId period ofCalendar
    dsimp only at after
    rw [sameCached, sameCount, waitingAfter] at after
    exact after
  · intro accounted organizationId period ofCalendar
    dsimp only
    rw [sameCached, sameCount, waitingAfter]
    exact accounted organizationId period ofCalendar

/-- A creation that stops waiting without an increment. -/
theorem accounted_stops (left : Option Request) {organizationId : Nat} {timeInterval : Option TimeInterval}
    (ofCalendar : OfCalendar calendar timeInterval)
    (waits : ∀ key, waiting [request] key = if keyOf organizationId timeInterval = key then 1 else 0)
    (stopped : ∀ key, waiting left.toList key = 0)
    (accounted : Accounted calendar ⟨store, front ++ request :: back⟩) :
    Accounted calendar ⟨store, front ++ left.toList ++ back⟩ ↔
      store.cache (keyOf organizationId timeInterval) = none := by
  have step : ∀ key, waiting (front ++ left.toList ++ back) key +
      (if keyOf organizationId timeInterval = key then 1 else 0) = waiting (front ++ request :: back) key := by
    intro key
    have counted := waiting_step front back request left key
    rw [waits key, stopped key] at counted
    exact counted
  constructor
  · intro after
    cases cached : store.cache (keyOf organizationId timeInterval) with
    | none => rfl
    | some entry =>
        have sumBefore := accounted organizationId timeInterval ofCalendar entry cached
        have sumAfter := after organizationId timeInterval ofCalendar entry cached
        have here := step (keyOf organizationId timeInterval)
        dsimp only at sumBefore sumAfter
        rw [if_pos rfl] at here
        omega
  · intro missing other period otherOfCalendar entry cached
    have sumBefore := accounted other period otherOfCalendar entry cached
    have here := step (keyOf other period)
    dsimp only at sumBefore cached ⊢
    by_cases same : keyOf organizationId timeInterval = keyOf other period
    · rw [← same, missing] at cached
      cases cached
    · rw [if_neg same] at here
      omega

theorem set_cache (key other : Key) (entry : Option Entry) :
    (store.set key entry).cache other = if other = key then entry else store.cache other := rfl

theorem set_experiments (key : Key) (entry : Option Entry) :
    (store.set key entry).experiments = store.experiments := rfl

theorem increment_experiments (key : Key) : (store.increment key).experiments = store.experiments := by
  rw [Store.increment]
  cases store.cache key <;> rfl

theorem increment_cache_of_ne {key other : Key} (different : other ≠ key) :
    (store.increment key).cache other = store.cache other := by
  rw [Store.increment]
  cases store.cache key with
  | none => exact if_neg different
  | some entry => exact if_neg different

theorem increment_cache_self (store : Store) (key : Key) :
    ∃ entry, (store.increment key).cache key = some entry ∧
      entry.count = ((store.cache key).map Entry.count).getD 0 + 1 := by
  rw [Store.increment]
  cases store.cache key with
  | none => exact ⟨_, if_pos rfl, rfl⟩
  | some entry => exact ⟨_, if_pos rfl, rfl⟩

/-- The increment itself. When the key is gone, INCR starts it again from 0. -/
theorem accounted_increment {organizationId : Nat} {timeInterval : Option TimeInterval}
    (ofCalendar : OfCalendar calendar timeInterval)
    (accounted : Accounted calendar ⟨store, front ++ .increment organizationId timeInterval :: back⟩) :
    Accounted calendar ⟨store.increment (keyOf organizationId timeInterval), front ++ back⟩ ↔
      (store.cache (keyOf organizationId timeInterval) = none →
        waiting (front ++ .increment organizationId timeInterval :: back) (keyOf organizationId timeInterval) =
          trueCount store.experiments organizationId timeInterval) := by
  have step : ∀ key, waiting (front ++ back) key +
      (if keyOf organizationId timeInterval = key then 1 else 0) =
        waiting (front ++ .increment organizationId timeInterval :: back) key := by
    intro key
    simp only [waiting, List.countP_append, List.countP_cons, increments, beq_iff_eq]
    omega
  rcases increment_cache_self store (keyOf organizationId timeInterval) with ⟨written, isWritten, count⟩
  have here := step (keyOf organizationId timeInterval)
  rw [if_pos rfl] at here
  constructor
  · intro after missing
    have sum := after organizationId timeInterval ofCalendar written isWritten
    dsimp only at sum
    rw [increment_experiments] at sum
    rw [missing] at count
    have one : written.count = 1 := count
    omega
  · intro whenMissing other period otherOfCalendar entry cached
    dsimp only at cached ⊢
    rw [increment_experiments]
    by_cases same : keyOf other period = keyOf organizationId timeInterval
    · rcases keyOf_injective otherOfCalendar ofCalendar same with ⟨rfl, rfl⟩
      rw [isWritten] at cached
      cases cached
      cases before : store.cache (keyOf other period) with
      | none =>
          have sum := whenMissing before
          rw [before] at count
          have one : written.count = 1 := count
          omega
      | some entry =>
          have sum := accounted other period otherOfCalendar entry before
          dsimp only at sum
          rw [before] at count
          have more : written.count = entry.count + 1 := count
          omega
    · rw [increment_cache_of_ne same] at cached
      have sum := accounted other period otherOfCalendar entry cached
      have there := step (keyOf other period)
      rw [if_neg fun same' => same same'.symm] at there
      dsimp only at sum
      omega

/-- An insertion by a creation that goes on to look up the key without a period. -/
theorem accounted_insert {experiment : Experiment} (counts : experiment.development = false)
    (accounted : Accounted calendar ⟨store, front ++ .insert experiment :: back⟩) :
    Accounted calendar ⟨{ store with experiments := store.experiments ++ [experiment] },
        front ++ [.keyExists experiment.organizationId none] ++ back⟩ ↔
      ∀ interval, OfCalendar calendar (some interval) →
        countable experiment.organizationId (some interval) experiment = true →
        store.cache (keyOf experiment.organizationId (some interval)) = none := by
  have step : ∀ key, waiting (front ++ [.keyExists experiment.organizationId none] ++ back) key =
      waiting (front ++ .insert experiment :: back) key +
        (if keyOf experiment.organizationId none = key then 1 else 0) := by
    intro key
    simp only [waiting, List.countP_append, List.countP_cons, List.countP_nil, increments, beq_iff_eq]
    simp
    omega
  constructor
  · intro after interval ofCalendar isCounted
    cases cached : store.cache (keyOf experiment.organizationId (some interval)) with
    | none => rfl
    | some entry =>
        have sumBefore := accounted experiment.organizationId (some interval) ofCalendar entry cached
        have sumAfter := after experiment.organizationId (some interval) ofCalendar entry cached
        dsimp only at sumBefore sumAfter
        have otherKey : keyOf experiment.organizationId none ≠ keyOf experiment.organizationId (some interval) := by
          intro same
          cases (Key.mk.inj same).2
        rw [trueCount_append, if_pos isCounted, step, if_neg otherKey] at sumAfter
        omega
  · intro uncached organizationId period ofCalendar entry cached
    have sumBefore := accounted organizationId period ofCalendar entry cached
    dsimp only at sumBefore cached ⊢
    rw [trueCount_append, step]
    by_cases ownOrganization : experiment.organizationId = organizationId
    · subst ownOrganization
      cases period with
      | none =>
          have isCounted : countable experiment.organizationId none experiment = true := by
            simp [countable, counts]
          rw [if_pos isCounted, if_pos rfl]
          omega
      | some interval =>
          have notCounted : ¬countable experiment.organizationId (some interval) experiment = true := by
            intro isCounted
            rw [uncached interval ofCalendar isCounted] at cached
            cases cached
          have otherKey : keyOf experiment.organizationId none ≠
              keyOf experiment.organizationId (some interval) := by
            intro same
            cases (Key.mk.inj same).2
          rw [if_neg notCounted, if_neg otherKey]
          exact sumBefore
    · have notCounted : ¬countable organizationId period experiment = true := by
        simp [countable, ownOrganization]
      have otherKey : keyOf experiment.organizationId none ≠ keyOf organizationId period := by
        intro same
        exact ownOrganization (Key.mk.inj same).1
      rw [if_neg notCounted, if_neg otherKey]
      exact sumBefore

/-- An experiment in development counts nowhere, and its creation is done with the insertion. -/
theorem accounted_insert_development {experiment : Experiment} (development : experiment.development = true)
    (accounted : Accounted calendar ⟨store, front ++ .insert experiment :: back⟩) :
    Accounted calendar ⟨{ store with experiments := store.experiments ++ [experiment] }, front ++ back⟩ := by
  intro organizationId period ofCalendar entry cached
  have sumBefore := accounted organizationId period ofCalendar entry cached
  have notCounted : ¬countable organizationId period experiment = true := by
    simp [countable, development]
  have sameWaiting : waiting (front ++ back) (keyOf organizationId period) =
      waiting (front ++ .insert experiment :: back) (keyOf organizationId period) := by
    simp [waiting, List.countP_append, increments]
  dsimp only at sumBefore cached ⊢
  rw [trueCount_append, if_neg notCounted, sameWaiting]
  exact sumBefore

/-- A count that is stored. -/
theorem accounted_set (left : Option Request) {organizationId count : Nat} {timeInterval : Option TimeInterval}
    {asOf : List Experiment} {lenient : Bool} (ofCalendar : OfCalendar calendar timeInterval)
    (waitsNot : ∀ key, waiting left.toList key = 0)
    (counted : Counted store.experiments (.set organizationId timeInterval count asOf lenient))
    (accounted : Accounted calendar
      ⟨store, front ++ .set organizationId timeInterval count asOf lenient :: back⟩) :
    Accounted calendar ⟨store.set (keyOf organizationId timeInterval) (some { count := count }),
        front ++ left.toList ++ back⟩ ↔
      waiting (front ++ .set organizationId timeInterval count asOf lenient :: back)
          (keyOf organizationId timeInterval) =
        trueCount (insertedSince asOf store.experiments) organizationId timeInterval +
          leftOut asOf organizationId timeInterval lenient := by
  have total := trueCount_of_counted counted
  have sameWaiting : ∀ key, waiting (front ++ left.toList ++ back) key =
      waiting (front ++ .set organizationId timeInterval count asOf lenient :: back) key := by
    intro key
    have step := waiting_step front back (.set organizationId timeInterval count asOf lenient) left key
    rw [waitsNot key] at step
    exact step
  constructor
  · intro after
    have balanced := after organizationId timeInterval ofCalendar
    dsimp only at balanced
    rw [set_cache, if_pos rfl, balanced_some, sameWaiting, set_experiments, total] at balanced
    exact Nat.add_left_cancel balanced
  · intro lacking other period otherOfCalendar
    dsimp only
    rw [set_cache, sameWaiting, set_experiments]
    by_cases same : keyOf other period = keyOf organizationId timeInterval
    · rcases keyOf_injective otherOfCalendar ofCalendar same with ⟨rfl, rfl⟩
      rw [if_pos rfl, balanced_some, total, lacking]
    · rw [if_neg same]
      exact accounted other period otherOfCalendar

/-- An expiry time does not touch the count. -/
theorem balanced_setExpireAt (store : Store) (key other : Key) (expireAt : Int) (waiting total : Nat) :
    Balanced ((store.setExpireAt key expireAt).cache other) waiting total ↔
      Balanced (store.cache other) waiting total := by
  rw [Store.setExpireAt]
  cases cached : store.cache key with
  | none => exact Iff.rfl
  | some entry =>
      by_cases same : other = key
      · simp only [set_cache, if_pos same]
        rw [same, cached, balanced_some, balanced_some]
      · simp only [set_cache, if_neg same]

theorem setExpireAt_experiments (key : Key) (expireAt : Int) :
    (store.setExpireAt key expireAt).experiments = store.experiments := by
  rw [Store.setExpireAt]
  cases store.cache key <;> rfl

/-- What a step of a request does to the account. -/
theorem accounted_call (raises : Bool) (ofCalendar : OfCalendar calendar request.period)
    (counted : Counted store.experiments request)
    (accounted : Accounted calendar ⟨store, front ++ request :: back⟩) :
    Accounted calendar ⟨(call store raises request).1,
        front ++ (call store raises request).2.request.toList ++ back⟩ ↔
      RequestMet calendar ⟨store, front ++ request :: back⟩ raises request := by
  have quiet : ∀ left : Option Request, (∀ key, waiting left.toList key = waiting [request] key) →
      Accounted calendar ⟨store, front ++ left.toList ++ back⟩ := by
    intro left sameWaiting
    exact (accounted_quiet left (fun _ _ _ => Iff.rfl) (fun _ _ => rfl) sameWaiting).mpr accounted
  cases request with
  | insert experiment =>
      cases raises with
      | true =>
          apply iff_of_true
          · exact quiet none fun key => rfl
          · intro impossible
            cases impossible
      | false =>
          cases development : experiment.development with
          | true =>
              apply iff_of_true
              · simpa [call, incrCountByOrganizationIdForBilling, development, Progress.request] using
                  accounted_insert_development development accounted
              · intro _ interval _ isCounted
                simp [countable, development] at isCounted
          | false =>
              have inserted := accounted_insert development accounted
              simpa [call, incrCountByOrganizationIdForBilling, development, Progress.request, RequestMet]
                using inserted
  | keyExists organizationId timeInterval =>
      have waits : ∀ key, waiting [.keyExists organizationId timeInterval] key =
          if keyOf organizationId timeInterval = key then 1 else 0 := by
        intro key
        simp [waiting, List.countP_singleton, increments]
      cases raises with
      | true =>
          have stops := accounted_stops none ofCalendar waits (fun _ => rfl) accounted
          simpa [call, Progress.request, RequestMet, Request.period] using stops
      | false =>
          apply iff_of_true
          · cases cached : store.cache (keyOf organizationId timeInterval) with
            | none =>
                have stops := accounted_stops (some (.count organizationId timeInterval false)) ofCalendar waits
                  (fun _ => rfl) accounted
                simpa [call, cached, Progress.request] using stops.mpr cached
            | some entry =>
                have stays := quiet (some (.increment organizationId timeInterval)) fun key => rfl
                simpa [call, cached, Progress.request] using stays
          · intro impossible
            cases impossible
  | increment organizationId timeInterval =>
      have waits : ∀ key, waiting [.increment organizationId timeInterval] key =
          if keyOf organizationId timeInterval = key then 1 else 0 := by
        intro key
        simp [waiting, List.countP_singleton, increments]
      cases raises with
      | true =>
          have stops := accounted_stops none ofCalendar waits (fun _ => rfl) accounted
          simpa [call, Progress.request, RequestMet, Request.period] using stops
      | false =>
          have incremented := accounted_increment ofCalendar accounted
          simpa [call, Progress.request, RequestMet, Request.period] using incremented
  | get organizationId timeInterval =>
      have asks := quiet (some (.count organizationId timeInterval false)) fun key => rfl
      have ends := quiet none fun key => rfl
      apply iff_of_true
      · cases raises with
        | true => simpa [call, Progress.request] using asks
        | false =>
            cases cached : store.cache (keyOf organizationId timeInterval) with
            | none => simpa [call, cached, Progress.request] using asks
            | some entry => simpa [call, cached, Progress.request] using ends
      · trivial
  | count organizationId timeInterval lenient =>
      apply iff_of_true
      · cases raises with
        | true => exact quiet none fun key => rfl
        | false => exact quiet (some (.set organizationId timeInterval _ _ _)) fun key => rfl
      · trivial
  | set organizationId timeInterval count asOf lenient =>
      cases raises with
      | true =>
          apply iff_of_true
          · exact quiet none fun key => rfl
          · intro impossible
            cases impossible
      | false =>
          cases timeInterval with
          | none =>
              have stored := accounted_set none ofCalendar (fun key => rfl) counted accounted
              simpa [call, Progress.request, RequestMet, Request.period] using stored
          | some interval =>
              have stored := accounted_set (some (.setExpireAt organizationId (some interval) count))
                ofCalendar (fun key => rfl) counted accounted
              simpa [call, Progress.request, RequestMet, Request.period] using stored
  | setExpireAt organizationId timeInterval count =>
      apply iff_of_true
      · cases raises with
        | true => exact quiet none fun key => rfl
        | false =>
            cases timeInterval with
            | none => exact quiet none fun key => rfl
            | some interval =>
                have sameCount : ∀ other period, trueCount (store.setExpireAt
                    (keyOf organizationId (some interval)) (interval.finish + endBuffer)).experiments other period =
                      trueCount store.experiments other period := by
                  intro other period
                  rw [setExpireAt_experiments]
                have waitsNot : ∀ key,
                    waiting [] key = waiting [.setExpireAt organizationId (some interval) count] key :=
                  fun key => rfl
                have sameCached :=
                  (balanced_setExpireAt store (keyOf organizationId (some interval)) ·
                    (interval.finish + endBuffer))
                exact (accounted_quiet none sameCached sameCount waitsNot).mpr accounted
      · trivial

/-- A request stays with the period that it asked for. -/
theorem period_call {raises : Bool} {next : Request} (ofCalendar : OfCalendar calendar request.period)
    (goesOn : (call store raises request).2.request = some next) : OfCalendar calendar next.period := by
  cases request with
  | insert experiment =>
      simp only [call] at goesOn
      split at goesOn
      · cases goesOn
      · simp only [incrCountByOrganizationIdForBilling] at goesOn
        split at goesOn
        · cases goesOn
        · cases goesOn
          trivial
  | keyExists organizationId timeInterval =>
      simp only [call] at goesOn
      split at goesOn
      · cases goesOn
      · split at goesOn
        · cases goesOn
          exact ofCalendar
        · cases goesOn
          exact ofCalendar
  | increment organizationId timeInterval =>
      simp only [call] at goesOn
      split at goesOn <;> cases goesOn
  | get organizationId timeInterval =>
      simp only [call] at goesOn
      split at goesOn
      · cases goesOn
        exact ofCalendar
      · split at goesOn
        · cases goesOn
        · cases goesOn
          exact ofCalendar
  | count organizationId timeInterval lenient =>
      simp only [call] at goesOn
      split at goesOn
      · cases goesOn
      · cases goesOn
        exact ofCalendar
  | set organizationId timeInterval count asOf lenient =>
      simp only [call] at goesOn
      split at goesOn
      · cases goesOn
      · cases timeInterval with
        | none => cases goesOn
        | some interval =>
            cases goesOn
            exact ofCalendar
  | setExpireAt organizationId timeInterval count =>
      simp only [call] at goesOn
      split at goesOn
      · cases goesOn
      · cases timeInterval <;> cases goesOn

/-- A call takes no experiment away. -/
theorem call_experiments (store : Store) (raises : Bool) (request : Request) :
    ∃ inserted, (call store raises request).1.experiments = store.experiments ++ inserted := by
  have unchanged : store.experiments = store.experiments ++ [] := (List.append_nil _).symm
  cases raises with
  | true => cases request <;> exact ⟨[], unchanged⟩
  | false =>
      cases request with
      | insert experiment => exact ⟨[experiment], rfl⟩
      | keyExists organizationId timeInterval =>
          refine ⟨[], ?_⟩
          rw [← unchanged]
          simp only [call, Bool.false_eq_true, if_false]
          split <;> rfl
      | increment organizationId timeInterval =>
          exact ⟨[], (increment_experiments _).trans unchanged⟩
      | get organizationId timeInterval =>
          refine ⟨[], ?_⟩
          rw [← unchanged]
          simp only [call, Bool.false_eq_true, if_false]
          split <;> rfl
      | count organizationId timeInterval lenient => exact ⟨[], unchanged⟩
      | set organizationId timeInterval count asOf lenient => exact ⟨[], unchanged⟩
      | setExpireAt organizationId timeInterval count =>
          cases timeInterval with
          | none => exact ⟨[], unchanged⟩
          | some interval => exact ⟨[], (setExpireAt_experiments _ _).trans unchanged⟩

/-- Only a query hands a count on to be stored. -/
theorem counted_left {raises : Bool} {next : Request}
    (goesOn : (call store raises request).2.request = some next) :
    Counted (call store raises request).1.experiments next := by
  cases next with
  | set organizationId timeInterval count asOf lenient =>
      cases request with
      | count askedFor askedPeriod askedLenient =>
          cases raises with
          | true => cases goesOn
          | false =>
              cases goesOn
              exact counted_query store.experiments organizationId timeInterval lenient
      | insert experiment =>
          simp only [call, incrCountByOrganizationIdForBilling] at goesOn
          split at goesOn
          · cases goesOn
          · split at goesOn <;> cases goesOn
      | keyExists askedFor askedPeriod =>
          simp only [call] at goesOn
          split at goesOn
          · cases goesOn
          · split at goesOn <;> cases goesOn
      | increment askedFor askedPeriod => cases raises <;> cases goesOn
      | get askedFor askedPeriod =>
          simp only [call] at goesOn
          split at goesOn
          · cases goesOn
          · split at goesOn <;> cases goesOn
      | set askedFor askedPeriod stored seen wasLenient =>
          cases raises with
          | true => cases goesOn
          | false => cases askedPeriod <;> cases goesOn
      | setExpireAt askedFor askedPeriod stored =>
          cases raises with
          | true => cases goesOn
          | false => cases askedPeriod <;> cases goesOn
  | _ => trivial

end Step

section Run

variable {calendar : Int → TimeInterval}

theorem period_receive_count (organizationId : Nat) (timeInterval : Option TimeInterval)
    (lenient useCache : Bool) :
    (receive (.countByOrganizationIdForBilling organizationId timeInterval lenient useCache)).period =
      timeInterval := by
  rw [receive]
  split <;> rfl

/-- A request that has just been received is not about to increment. -/
theorem increments_receive (requested : Call) (key : Key) : increments key (receive requested) = false := by
  cases requested with
  | create experiment => rfl
  | countByOrganizationIdForBilling organizationId timeInterval lenient useCache =>
      rw [receive]
      split <;> rfl

theorem accounted_receive {state : State} (requested : Call) (accounted : Accounted calendar state) :
    Accounted calendar (InFlight.next server state (.receive requested)) := by
  intro organizationId period ofCalendar entry cached
  have sum := accounted organizationId period ofCalendar entry cached
  simpa [InFlight.next, server, waiting, List.countP_append, increments_receive] using sum

theorem accounted_environment {state : State} (event : Change) (accounted : Accounted calendar state) :
    Accounted calendar (InFlight.next server state (.environment event)) := by
  intro organizationId period ofCalendar entry cached
  cases event with
  | expire key =>
      simp only [InFlight.next, server, change, set_cache] at cached
      split at cached
      · cases cached
      · exact accounted organizationId period ofCalendar entry cached
  | observe position later =>
      have sum := accounted organizationId period ofCalendar entry cached
      simpa [InFlight.next, server, change, trueCount_modify] using sum

/-- What is known of the counts on their way to the cache stays true in every event. -/
theorem counted_next (before : State) (event : Event)
    (counted : ∀ request ∈ before.inFlight, Counted before.store.experiments request) :
    ∀ request ∈ (InFlight.next server before event).inFlight,
      Counted (InFlight.next server before event).store.experiments request := by
  cases event with
  | receive requested =>
      intro request member
      rcases List.mem_append.mp member with earlier | new
      · exact counted request earlier
      · rw [List.mem_singleton.mp new]
        cases requested with
        | create experiment => trivial
        | countByOrganizationIdForBilling organizationId timeInterval lenient useCache =>
            simp only [server, receive]
            split <;> trivial
  | step position raises =>
      cases found : before.inFlight[position]? with
      | none =>
          rw [InFlight.next_step_none found]
          exact counted
      | some moving =>
          rcases InFlight.next_step server found raises with ⟨front, back, split, isNext⟩
          rw [isNext]
          intro request member
          have origin : request ∈ front ++ moving :: back ∨ _ := InFlight.mem_stepped member
          rcases origin with stays | isLeft
          · rw [← split] at stays
            rcases call_experiments before.store raises moving with ⟨inserted, isInserted⟩
            have grown := counted_append (counted request stays) inserted
            rw [← isInserted] at grown
            exact grown
          · exact counted_left isLeft
  | environment event =>
      intro request member
      cases event with
      | expire key => exact counted request member
      | observe position later => exact counted_modify (counted request member) position later

/-- An event keeps the account exactly under its condition. -/
theorem consistent_next {before : State} {event : Event} (consistent : Consistent calendar before) :
    Consistent calendar (InFlight.next server before event) ↔ Met calendar before event := by
  cases event with
  | receive requested =>
      constructor
      · intro after
        cases requested with
        | create experiment => trivial
        | countByOrganizationIdForBilling organizationId timeInterval lenient useCache =>
            have received := after.ofCalendar _ (List.mem_append_right _ (List.mem_singleton_self _))
            rw [server, period_receive_count] at received
            exact received
      · intro met
        constructor
        · exact accounted_receive requested consistent.accounted
        · intro request member
          rcases List.mem_append.mp member with before | new
          · exact consistent.ofCalendar request before
          · rw [List.mem_singleton.mp new]
            cases requested with
            | create experiment => trivial
            | countByOrganizationIdForBilling organizationId timeInterval lenient useCache =>
                rw [server, period_receive_count]
                exact met
        · exact counted_next before (.receive requested) consistent.counted
  | step position raises =>
      cases found : before.inFlight[position]? with
      | none =>
          rw [InFlight.next_step_none found]
          apply iff_of_true consistent
          intro request present
          rw [found] at present
          cases present
      | some request =>
          have ofCalendar := consistent.ofCalendar request (List.mem_of_getElem? found)
          have counted := consistent.counted request (List.mem_of_getElem? found)
          rcases InFlight.next_step server found raises with ⟨front, back, split, isNext⟩
          have here : before = ⟨before.store, front ++ request :: back⟩ := by
            rw [← split]
          have accounted := consistent.accounted
          rw [here] at accounted
          have keepsExactly := accounted_call raises ofCalendar counted accounted
          rw [← here] at keepsExactly
          constructor
          · intro after other present
            rw [found] at present
            cases present
            apply keepsExactly.mp
            have accountedAfter := after.accounted
            rw [isNext] at accountedAfter
            exact accountedAfter
          · intro met
            constructor
            · rw [isNext]
              exact keepsExactly.mpr (met request found)
            · have kept := InFlight.forall_next server before (.step position raises)
                (fun request => OfCalendar calendar request.period)
                (fun _ impossible => by cases impossible)
                (fun _ _ _ _ _ _ asked goesOn => period_call asked goesOn) consistent.ofCalendar
              exact kept
            · exact counted_next before (.step position raises) consistent.counted
  | environment event =>
      apply iff_of_true
      · exact ⟨accounted_environment event consistent.accounted, consistent.ofCalendar,
          counted_next before (.environment event) consistent.counted⟩
      · trivial

/-- With no request in flight, the accounts say that the cached counts are the true ones. -/
theorem cacheExact_iff_consistent {state : State} (quiet : state.inFlight = []) :
    CacheExact calendar state.store ↔ Consistent calendar state := by
  have waitingNone : ∀ key, waiting state.inFlight key = 0 := by
    intro key
    rw [quiet]
    rfl
  constructor
  · intro allExact
    constructor
    · intro organizationId period ofCalendar entry cached
      rw [waitingNone]
      exact allExact organizationId period ofCalendar entry cached
    · intro request member
      rw [quiet] at member
      cases member
    · intro request member
      rw [quiet] at member
      cases member
  · intro consistent organizationId period ofCalendar entry cached
    have sum := consistent.accounted organizationId period ofCalendar entry cached
    rw [waitingNone] at sum
    exact sum

/-- A run keeps its accounts exactly if all its events meet their conditions. -/
theorem consistent_run_iff {start : State} (consistent : Consistent calendar start) (events : List Event) :
    (∀ state ∈ (InFlight.run server start events).map Prod.snd, Consistent calendar state) ↔
      Trace.Every (fun before event _ => Met calendar before event) start (InFlight.run server start events) := by
  rw [← Trace.every_state_iff]
  apply Trace.every_iff (fun _ _ after => Consistent calendar after)
    (fun before event _ => Met calendar before event) (Consistent calendar) ?_ ?_ consistent
    (Trace.every_play (InFlight.next server) start events)
  · rintro before event after consistentBefore rfl
    exact consistent_next consistentBefore
  · intro before event after _ _ consistentAfter
    exact consistentAfter

/-- In a run from exact counts whose events all meet their conditions, the cached counts are exact whenever
    no request is in flight. -/
theorem cached_count_exact {start : State} (quiet : start.inFlight = [])
    (startExact : CacheExact calendar start.store) {events : List Event}
    (met : Trace.Every (fun before event _ => Met calendar before event) start
      (InFlight.run server start events)) :
    ∀ state ∈ Trace.reached start (InFlight.run server start events), state.inFlight = [] →
      CacheExact calendar state.store := by
  have consistent := (cacheExact_iff_consistent quiet).mp startExact
  have kept := (consistent_run_iff consistent events).mpr met
  intro state member quietThere
  apply (cacheExact_iff_consistent quietThere).mpr
  rcases List.mem_cons.mp member with rfl | later
  · exact consistent
  · exact kept state later

end Run

/-! ### Runs -/

def firstExperiment : Experiment where
  organizationId := 1
  development := false
  dateCreated := 0
  dateUpdated := 0
  allParameters := 1
  createdFirst := Int.le_refl _

/-- A creation on an empty cache counts the experiments afresh. Then a count runs its query before a second
    creation inserts, and is stored before that creation looks at the key, which it then increments. -/
def countedInTime : List Event :=
  [.receive (.create firstExperiment), .step 0 false, .step 0 false, .step 0 false, .step 0 false,
    .receive (.countByOrganizationIdForBilling 1 none false false), .step 0 false,
    .receive (.create firstExperiment), .step 1 false, .step 0 false, .step 0 false, .step 0 false]

/-- Both creations count, although the second is inserted while a count is on its way to the cache. -/
theorem cached_count_exact_countedInTime :
    empty.inFlight = [] ∧
      ∀ state ∈ Trace.reached empty (InFlight.run server empty countedInTime), state.inFlight = [] →
        CacheExact (fun second => ⟨second * 1000000, (second + 1) * 1000000⟩) state.store := by
  refine ⟨rfl, cached_count_exact rfl ?_ ?_⟩
  · intro organizationId period _ entry cached
    cases cached
  · refine ⟨trivial, ?_, ?_, ?_, ?_, trivial, ?_, trivial, ?_, ?_, ?_, ?_, trivial⟩
    · intro request found
      cases found
      intro _ interval _ _
      rfl
    · intro request found
      cases found
      intro impossible
      cases impossible
    · intro request found
      cases found
      trivial
    · intro request found
      cases found
      intro _
      rfl
    · intro request found
      cases found
      trivial
    · intro request found
      cases found
      intro _ interval _ _
      rfl
    · intro request found
      cases found
      intro _
      rfl
    · intro request found
      cases found
      intro impossible
      cases impossible
    · intro request found
      cases found
      constructor
      · intro impossible
        cases impossible
      · intro _ missing
        cases missing

/-- A count of the experiments runs between the insertion of a creation and its look at the key, which it
    then finds there. -/
def countedTwice : List Event :=
  [.receive (.create firstExperiment), .step 0 false,
    .receive (.countByOrganizationIdForBilling 1 none false false), .step 1 false, .step 1 false,
    .step 0 false, .step 0 false]

/-- An experiment is created and counted while an earlier count is not stored yet. -/
def countLost : List Event :=
  [.receive (.countByOrganizationIdForBilling 1 none false false), .step 0 false,
    .receive (.create firstExperiment), .step 1 false, .step 1 false, .step 1 false, .step 1 false,
    .step 0 false]

/-- The state after a sequence of events. -/
def final (events : List Event) : State :=
  (Trace.reached empty (InFlight.run server empty events)).getLast (List.cons_ne_nil _ _)

/-- With nothing in flight any more one experiment counts, but two are cached in one run and none in the other. -/
theorem cached_count_wrong :
    ((final countedTwice).inFlight = [] ∧ trueCount (final countedTwice).store.experiments 1 none = 1 ∧
        (final countedTwice).store.cache (keyOf 1 none) = some { count := 2 }) ∧
      ((final countLost).inFlight = [] ∧ trueCount (final countLost).store.experiments 1 none = 1 ∧
        (final countLost).store.cache (keyOf 1 none) = some { count := 0 }) ∧
      ¬∀ (calendar : Int → TimeInterval) (events : List Event),
        ∀ state ∈ Trace.reached empty (InFlight.run server empty events), state.inFlight = [] →
          CacheExact calendar state.store := by
  refine ⟨⟨rfl, rfl, rfl⟩, ⟨rfl, rfl, rfl⟩, ?_⟩
  intro always
  have supposed := always (fun _ => ⟨0, 0⟩) countedTwice (final countedTwice) (List.getLast_mem _) rfl
  have wrong := supposed 1 none trivial { count := 2 } rfl
  cases wrong

end Zigopt.Billing
