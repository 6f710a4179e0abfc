/-
Module: Zigopt.Billing.Counter
Layer: Model
Purpose: The number of experiments that an organization is billed for (`experiment/service.py`): the SQL
  query that counts them, the count that Redis caches under a key of its own for each billing window, and
  the creation of an experiment with the counting that follows it, one call to SQL or Redis after the other.
  Datetimes are microseconds since the epoch.
Main exports: Experiment, queryByOrganizationIdForBilling, Key, createExperimentCountByOrgBillingKey, Store,
  Request, server
-/
import Zigopt.Lib.InFlight

namespace Zigopt.Billing

/-- What the billing query reads of a row of `experiments`, of its client, and of the observations that
    the outer join finds. -/
structure Experiment where
  organizationId : Nat
  development : Bool
  dateCreated : Int
  dateUpdated : Int
  allParameters : Nat
  observations : Nat := 0
  createdFirst : dateCreated ≤ dateUpdated
  deriving DecidableEq, Repr

structure TimeInterval where
  start : Int
  finish : Int
  deriving DecidableEq, Repr

/-- `_query_by_organization_id_for_billing`. -/
def queryByOrganizationIdForBilling (experiments : List Experiment) (organizationId : Nat)
    (timeInterval : Option TimeInterval) (lenient : Bool) : List Experiment :=
  experiments.filter fun experiment =>
    experiment.organizationId == organizationId && !experiment.development &&
      (!lenient || decide (experiment.allParameters < experiment.observations)) &&
      match timeInterval with
      | none => true
      | some interval =>
          decide (interval.start ≤ experiment.dateCreated) && decide (interval.start ≤ experiment.dateUpdated) &&
            decide (experiment.dateCreated < interval.finish)

/-- The key has the second that the window starts in, not the end of the window. -/
structure Key where
  organizationId : Nat
  windowStart : Option Int
  deriving DecidableEq, Repr

/-- `datetime_to_seconds` truncates toward zero. -/
def datetimeToSeconds (datetime : Int) : Int := datetime.tdiv 1000000

/-- `create_experiment_count_by_org_billing_key`, in whole seconds. -/
def createExperimentCountByOrgBillingKey (organizationId : Nat) (startTime : Option Int) : Key :=
  { organizationId := organizationId, windowStart := startTime.map datetimeToSeconds }

/-- A count in Redis, with the time it expires at. -/
structure Entry where
  count : Nat
  expireAt : Option Int := none
  deriving DecidableEq, Repr

/-- The table of experiments and the Redis cache of their counts. -/
structure Store where
  experiments : List Experiment
  cache : Key → Option Entry

namespace Store

/-- The entry of a key is written, or removed. -/
def set (store : Store) (key : Key) (entry : Option Entry) : Store :=
  { store with cache := fun other => if other = key then entry else store.cache other }

/-- Redis INCR: a missing key counts as 0, and the expiry of a key stays. -/
def increment (store : Store) (key : Key) : Store :=
  match store.cache key with
  | none => store.set key (some { count := 1 })
  | some entry => store.set key (some { entry with count := entry.count + 1 })

/-- Redis EXPIREAT. -/
def setExpireAt (store : Store) (key : Key) (expireAt : Int) : Store :=
  match store.cache key with
  | none => store
  | some entry => store.set key (some { entry with expireAt := some expireAt })

end Store

/-- The next call of a request: of a creation `insert`, `keyExists` and `increment`, of a count `get`, `count`,
    `set` and `setExpireAt`, which a creation goes on with when the key does not exist. A `set` has the count
    that its query returned. No call reads its last two fields: they record the experiments that were in the
    database when the query ran, and whether it was lenient. -/
inductive Request where
  | insert (experiment : Experiment)
  | keyExists (organizationId : Nat) (timeInterval : Option TimeInterval)
  | increment (organizationId : Nat) (timeInterval : Option TimeInterval)
  | get (organizationId : Nat) (timeInterval : Option TimeInterval)
  | count (organizationId : Nat) (timeInterval : Option TimeInterval) (lenient : Bool)
  | set (organizationId : Nat) (timeInterval : Option TimeInterval) (count : Nat) (asOf : List Experiment)
      (lenient : Bool)
  | setExpireAt (organizationId : Nat) (timeInterval : Option TimeInterval) (count : Nat)
  deriving DecidableEq, Repr

def keyOf (organizationId : Nat) (timeInterval : Option TimeInterval) : Key :=
  createExperimentCountByOrgBillingKey organizationId (timeInterval.map TimeInterval.start)

/-- What a call leads to: the next call of the request, its result, or an exception. -/
inductive Progress where
  | waiting (request : Request)
  | returned (count : Option Nat)
  | raised
  deriving DecidableEq, Repr

def Progress.request : Progress → Option Request
  | .waiting request => some request
  | .returned _ => none
  | .raised => none

/-- `timedelta(days=1)`. -/
def endBuffer : Int := 24 * 60 * 60 * 1000000

/-- `incr_count_by_organization_id_for_billing(experiment, client.organization_id)`, as the create handler
    calls it: without a time interval. -/
def incrCountByOrganizationIdForBilling (experiment : Experiment) : Progress :=
  if experiment.development then .returned none else .waiting (.keyExists experiment.organizationId none)

/-- One call of a request. With `raises` the call raises: what Redis raises is tolerated, what SQL raises
    ends the request. The step of `keyExists` starts right after the insertion, so that an exception there may
    also come from what the handler does in between. A creation that has to count tolerates exceptions of SQL
    as well, and drops the count. -/
def call (store : Store) (raises : Bool) : Request → Store × Progress
  | .insert experiment =>
      if raises then (store, .raised)
      else
        ({ store with experiments := store.experiments ++ [experiment] },
          incrCountByOrganizationIdForBilling experiment)
  | .keyExists organizationId timeInterval =>
      if raises then (store, .returned none)
      else if (store.cache (keyOf organizationId timeInterval)).isSome then
        (store, .waiting (.increment organizationId timeInterval))
      else (store, .waiting (.count organizationId timeInterval false))
  | .increment organizationId timeInterval =>
      if raises then (store, .returned none)
      else (store.increment (keyOf organizationId timeInterval), .returned none)
  | .get organizationId timeInterval =>
      if raises then (store, .waiting (.count organizationId timeInterval false))
      else
        match store.cache (keyOf organizationId timeInterval) with
        | some entry => (store, .returned (some entry.count))
        | none => (store, .waiting (.count organizationId timeInterval false))
  | .count organizationId timeInterval lenient =>
      if raises then (store, .raised)
      else
        (store, .waiting (.set organizationId timeInterval
          (queryByOrganizationIdForBilling store.experiments organizationId timeInterval lenient).length
          store.experiments lenient))
  | .set organizationId timeInterval count _ _ =>
      if raises then (store, .returned (some count))
      else
        (store.set (keyOf organizationId timeInterval) (some { count := count }),
          match timeInterval with
          | none => .returned (some count)
          | some _ => .waiting (.setExpireAt organizationId timeInterval count))
  | .setExpireAt organizationId timeInterval count =>
      if raises then (store, .returned (some count))
      else
        match timeInterval with
        | none => (store, .returned (some count))
        | some interval =>
            (store.setExpireAt (keyOf organizationId timeInterval) (interval.finish + endBuffer),
              .returned (some count))

/-- A creation, or `count_by_organization_id_for_billing`. -/
inductive Call where
  | create (experiment : Experiment)
  | countByOrganizationIdForBilling (organizationId : Nat) (timeInterval : Option TimeInterval)
      (lenient useCache : Bool)
  deriving DecidableEq, Repr

/-- With both `lenient` and `use_cache` the cache is not used. -/
def receive : Call → Request
  | .create experiment => .insert experiment
  | .countByOrganizationIdForBilling organizationId timeInterval lenient useCache =>
      if useCache && !lenient then .get organizationId timeInterval
      else .count organizationId timeInterval lenient

/-- What happens to the store beside the requests: a key expires, or an experiment goes on, which adds an
    observation and moves its date of update on. -/
inductive Change where
  | expire (key : Key)
  | observe (position : Nat) (later : Nat)
  deriving DecidableEq, Repr

def Experiment.observe (experiment : Experiment) (later : Nat) : Experiment :=
  { experiment with
    observations := experiment.observations + 1
    dateUpdated := experiment.dateUpdated + later
    createdFirst :=
      Int.le_trans experiment.createdFirst (Int.le_add_of_nonneg_right (Int.natCast_nonneg later)) }

/-- What happens to the store besides the requests: a key expires, or an experiment is observed. -/
def change (store : Store) : Change → Store
  | .expire key => store.set key none
  | .observe position later =>
      { store with experiments := store.experiments.modify position fun experiment => experiment.observe later }

/-- The requests, stopped between their calls, over the store and its environment. -/
def server : InFlight.Server Store Call Request Bool Change where
  receive := receive
  step := fun store raises request => ((call store raises request).1, (call store raises request).2.request)
  environment := change

abbrev State := InFlight.Configuration Store Request

/-- Calls, their steps (which may raise), and the changes from outside. -/
abbrev Event := InFlight.Event Call Bool Change

def empty : State :=
  { store := { experiments := [], cache := fun _ => none }, inFlight := [] }

end Zigopt.Billing
