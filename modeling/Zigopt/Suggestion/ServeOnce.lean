/-
Module: Zigopt.Suggestion.ServeOnce
Layer: Suggestion
Purpose: No suggestion is served twice, in whatever order the statements of the requests run. What keeps
  requests apart is the processed row alone: a request that goes on to return has inserted one, the
  unique constraints let nobody else insert a row with the same suggestion or the same queued
  suggestion, and uuids of unprocessed rows are unique. A request that loses such an insert removes the
  candidate from Redis and never meets its uuid again.
Main exports: Store.Consistent, ProcessedEffect, Serving.exclusive, Serving.serves_once
-/
import Mathlib.Data.List.Nodup
import Zigopt.Suggestion.Broker

namespace Zigopt.Suggestion

open Interleaving

/-! ### The tables -/

/-- The unique constraints of the two tables. -/
structure Store.Consistent (store : Store) : Prop where
  ids : store.ids.Nodup
  uuids : store.uuids.Nodup
  processedIds : store.processedIds.Nodup
  claimedIds : store.claimedIds.Nodup

/-- A value occurs at one place of a filtered image without repetitions. -/
theorem eq_of_nodup_filterMap {α β : Type} {f : α → Option β} {items : List α}
    (nodup : (items.filterMap f).Nodup) {first second : α} {value : β} (memberFirst : first ∈ items)
    (memberSecond : second ∈ items) (isFirst : f first = some value) (isSecond : f second = some value) :
    first = second := by
  induction items with
  | nil => cases memberFirst
  | cons head rest inductionHypothesis =>
      have onlyOnce : ∀ other ∈ rest, f other = some value → f head ≠ some value := by
        intro other inRest isValue isHead
        rw [List.filterMap_cons_some isHead, List.nodup_cons] at nodup
        exact nodup.1 (List.mem_filterMap.mpr ⟨other, inRest, isValue⟩)
      rcases List.mem_cons.mp memberFirst with rfl | inRest
      · rcases List.mem_cons.mp memberSecond with rfl | secondInRest
        · rfl
        · exact False.elim (onlyOnce second secondInRest isSecond isFirst)
      · rcases List.mem_cons.mp memberSecond with rfl | secondInRest
        · exact False.elim (onlyOnce first inRest isFirst isSecond)
        · apply inductionHypothesis ?_ inRest secondInRest
          exact nodup.sublist ((List.sublist_cons_self head rest).filterMap f)

theorem Store.Consistent.uuid_id {store : Store} (consistent : store.Consistent) {id other : Nat}
    {uuid : Uuid} (row : (id, uuid) ∈ store.unprocessed) (otherRow : (other, uuid) ∈ store.unprocessed) :
    id = other :=
  congrArg Prod.fst (List.inj_on_of_nodup_map consistent.uuids row otherRow rfl)

theorem Store.Consistent.processed_row {store : Store} (consistent : store.Consistent)
    {id : Nat} {queuedId otherQueued : Option Nat} (row : (id, queuedId) ∈ store.processed)
    (otherRow : (id, otherQueued) ∈ store.processed) : queuedId = otherQueued :=
  congrArg Prod.snd (List.inj_on_of_nodup_map consistent.processedIds row otherRow rfl)

/-- A queued suggestion is claimed by one row. -/
theorem Store.Consistent.claimed_row {store : Store} (consistent : store.Consistent) {id other : Nat}
    {queuedId : Nat} (row : (id, some queuedId) ∈ store.processed)
    (otherRow : (other, some queuedId) ∈ store.processed) : id = other :=
  congrArg Prod.fst (eq_of_nodup_filterMap consistent.claimedIds row otherRow rfl rfl)

/-! ### What a step does to the tables -/

/-- The processed row that a request goes on with once it has inserted it. -/
def Pc.row : Pc → Option (Nat × Option Nat)
  | .removeFromHash caller _ id => some (id, caller.queuedId)
  | .removeFromSortedSet caller _ id => some (id, caller.queuedId)
  | .deleteQueued caller _ id => some (id, caller.queuedId)
  | .findMatching _ id => some (id, none)
  | .replaceReserveId id _ => some (id, none)
  | .replaceInsert id _ _ => some (id, none)
  | .replaceUpdate id _ _ => some (id, none)
  | .returned _ id queuedId => some (id, queuedId)
  | _ => none

@[simp] theorem Pc.row_queuedLoop (rounds : Nat) : (Pc.queuedLoop rounds).row = none := by
  cases rounds <;> rfl

@[simp] theorem Pc.row_afterLoop (config : BrokerConfig) : (Pc.afterLoop config).row = none := by
  unfold Pc.afterLoop
  split <;> rfl

@[simp] theorem Pc.row_nextLoop (config : BrokerConfig) (rounds : Nat) :
    (Pc.nextLoop config rounds).row = none := by
  cases rounds with
  | zero => exact Pc.row_afterLoop config
  | succ rounds => rfl

/-- The three ways in which a step of a request treats `suggestions_processed` and its own row. -/
inductive ProcessedEffect (store : Store) (own : Request) (store' : Store) (own' : Request) : Prop where
  | quiet (same : store'.processed = store.processed) (row : own'.pc.row = none ∨ own'.pc.row = own.pc.row)
  | inserted (id : Nat) (queuedId : Option Nat) (unique : store.CanInsertProcessed id queuedId)
      (processed : store'.processed = (store.insertProcessed id queuedId).processed)
      (row : own'.pc.row = some (id, queuedId))
  | replaced (id newId : Nat) (unique : newId ∉ store.processedIds)
      (processed : store'.processed = (store.replaceProcessed id newId).processed)
      (rowBefore : own.pc.row = some (id, none)) (row : own'.pc.row = some (newId, none))

theorem RequestStep.processedEffect {config : BrokerConfig} {store store' : Store} {own own' : Request}
    (step : RequestStep config store own store' own') : ProcessedEffect store own store' own' := by
  cases step with
  | insertProcessed unique => exact .inserted _ _ unique rfl rfl
  | replaceUpdate unique => exact .replaced _ _ unique rfl rfl rfl
  | removeFromHash => exact .quiet rfl (.inr rfl)
  | removeFromSortedSet => exact .quiet rfl (.inr rfl)
  | removeFromHashFailed => exact .quiet rfl (.inr rfl)
  | removeFromSortedSetFailed => exact .quiet rfl (.inr rfl)
  | deleteQueued => exact .quiet rfl (.inr rfl)
  | processed notQueued => exact .quiet rfl (.inr (by simp [Pc.row, notQueued]))
  | noConflict => exact .quiet rfl (.inr rfl)
  | conflict => exact .quiet rfl (.inr rfl)
  | replaceReserveId => exact .quiet rfl (.inr rfl)
  | replaceInsert => exact .quiet rfl (.inr rfl)
  | begin => exact .quiet rfl (.inl (Pc.row_queuedLoop _))
  | foundNone => exact .quiet rfl (.inl (Pc.row_nextLoop config 5))
  | sampledNone => exact .quiet rfl (.inl (Pc.row_afterLoop config))
  | ignored => exact .quiet rfl (.inl (Pc.row_nextLoop config _))
  | alreadyProcessedQueued => exact .quiet rfl (.inl (Pc.row_queuedLoop _))
  | lostSortedSet => exact .quiet rfl (.inl (Pc.row_nextLoop config _))
  | lostHashFailed => exact .quiet rfl (.inl (Pc.row_nextLoop config _))
  | lostSortedSetFailed => exact .quiet rfl (.inl (Pc.row_nextLoop config _))
  | tolerated => exact .quiet rfl (.inl (Pc.row_afterLoop config))
  | _ => exact .quiet rfl (.inl rfl)

/-- A step leaves `suggestions` alone or adds a row that its unique constraints allow. -/
inductive UnprocessedEffect (store store' : Store) : Prop where
  | quiet (same : store'.unprocessed = store.unprocessed)
  | inserted (id : Nat) (uuid : Uuid) (unique : store.CanInsertUnprocessed id uuid)
      (unprocessed : store'.unprocessed = (id, uuid) :: store.unprocessed)

theorem RequestStep.unprocessedEffect {config : BrokerConfig} {store store' : Store} {own own' : Request}
    (step : RequestStep config store own store' own') : UnprocessedEffect store store' := by
  cases step with
  | createUnprocessed _ unique => exact .inserted _ _ unique rfl
  | insertUnprocessed unique => exact .inserted _ _ unique rfl
  | replaceInsert unique => exact .inserted _ _ unique rfl
  | _ => exact .quiet rfl

theorem UnprocessedEffect.subset {store store' : Store} (effect : UnprocessedEffect store store') :
    store.unprocessed ⊆ store'.unprocessed := by
  cases effect with
  | quiet same => rw [same]; exact List.Subset.refl _
  | inserted id uuid unique unprocessed => rw [unprocessed]; exact List.subset_cons_self _ _

theorem EnvironmentStep.unprocessedEffect {store store' : Store} (step : EnvironmentStep store store') :
    UnprocessedEffect store store' := by
  cases step with
  | explicitUnprocessed _ unique => exact .inserted _ _ unique rfl
  | _ => exact .quiet rfl

/-- The environment adds rows to `suggestions_processed` under its constraints and changes none. -/
theorem EnvironmentStep.processed {store store' : Store} (step : EnvironmentStep store store') :
    store'.processed = store.processed ∨ ∃ id, store.CanInsertProcessed id none ∧
      store'.processed = (store.insertProcessed id none).processed := by
  cases step with
  | explicitProcessed id unique => exact .inr ⟨id, unique, rfl⟩
  | _ => exact .inl rfl

/-! ### The constraints hold throughout -/

/-- The unprocessed suggestions keep distinct ids. -/
theorem UnprocessedEffect.nodup {store store' : Store} (effect : UnprocessedEffect store store')
    (ids : store.ids.Nodup) (uuids : store.uuids.Nodup) : store'.ids.Nodup ∧ store'.uuids.Nodup := by
  cases effect with
  | quiet same =>
      unfold Store.ids Store.uuids at *
      rw [same]
      exact ⟨ids, uuids⟩
  | inserted id uuid unique unprocessed =>
      unfold Store.ids Store.uuids at *
      rw [unprocessed]
      exact ⟨List.nodup_cons.mpr ⟨unique.1, ids⟩, List.nodup_cons.mpr ⟨unique.2, uuids⟩⟩

/-- An insert that the constraints let through keeps the ids distinct. -/
theorem Store.CanInsertProcessed.nodup {store : Store} {id : Nat} {queuedId : Option Nat}
    (unique : store.CanInsertProcessed id queuedId) (processedIds : store.processedIds.Nodup)
    (claimedIds : store.claimedIds.Nodup) :
    (store.insertProcessed id queuedId).processedIds.Nodup ∧
      (store.insertProcessed id queuedId).claimedIds.Nodup := by
  constructor
  · exact List.nodup_cons.mpr ⟨unique.1, processedIds⟩
  · cases queuedId with
    | none => exact claimedIds
    | some queued => exact List.nodup_cons.mpr ⟨unique.2 queued rfl, claimedIds⟩

theorem Store.replaceProcessed_processedIds (store : Store) (id newId : Nat) :
    (store.replaceProcessed id newId).processedIds =
      store.processedIds.map fun other => if other = id then newId else other := by
  simp only [Store.processedIds, Store.replaceProcessed, List.map_map]
  apply List.map_congr_left
  intro row _
  simp only [Function.comp]
  split <;> rfl

theorem Store.replaceProcessed_claimedIds (store : Store) (id newId : Nat) :
    (store.replaceProcessed id newId).claimedIds = store.claimedIds := by
  simp only [Store.claimedIds, Store.replaceProcessed, List.filterMap_map]
  apply List.filterMap_congr
  intro row _
  simp only [Function.comp]
  split <;> rfl

theorem Store.replaceProcessed_nodup {store : Store} (id : Nat) {newId : Nat}
    (unique : newId ∉ store.processedIds) (processedIds : store.processedIds.Nodup) :
    (store.replaceProcessed id newId).processedIds.Nodup := by
  rw [Store.replaceProcessed_processedIds]
  apply List.Nodup.map_on ?_ processedIds
  intro first memberFirst second memberSecond same
  by_cases isOld : first = id
  · by_cases isOldSecond : second = id
    · rw [isOld, isOldSecond]
    · rw [if_pos isOld, if_neg isOldSecond] at same
      exact False.elim (unique (same ▸ memberSecond))
  · by_cases isOldSecond : second = id
    · rw [if_neg isOld, if_pos isOldSecond] at same
      exact False.elim (unique (same ▸ memberFirst))
    · rw [if_neg isOld, if_neg isOldSecond] at same
      exact same

/-- The processed suggestions keep distinct ids and distinct sources. -/
theorem ProcessedEffect.nodup {store store' : Store} {own own' : Request}
    (effect : ProcessedEffect store own store' own') (processedIds : store.processedIds.Nodup)
    (claimedIds : store.claimedIds.Nodup) : store'.processedIds.Nodup ∧ store'.claimedIds.Nodup := by
  cases effect with
  | quiet same row =>
      unfold Store.processedIds Store.claimedIds at *
      rw [same]
      exact ⟨processedIds, claimedIds⟩
  | inserted id queuedId unique processed row =>
      have nodup := unique.nodup processedIds claimedIds
      unfold Store.processedIds Store.claimedIds at *
      rw [processed]
      exact nodup
  | replaced id newId unique processed rowBefore row =>
      have nodup := Store.replaceProcessed_nodup id unique processedIds
      have sameClaims := store.replaceProcessed_claimedIds id newId
      unfold Store.processedIds Store.claimedIds at *
      rw [processed, sameClaims]
      exact ⟨nodup, claimedIds⟩

theorem Serving.consistent {config : BrokerConfig} {serving : Serving} (reached : Reached config serving) :
    serving.store.Consistent := by
  apply reached.storeInvariant Store.Consistent
  · exact ⟨.nil, .nil, .nil, .nil⟩
  · intro store own store' own' consistent step
    obtain ⟨ids, uuids⟩ := step.unprocessedEffect.nodup consistent.ids consistent.uuids
    obtain ⟨processedIds, claimedIds⟩ :=
      step.processedEffect.nodup consistent.processedIds consistent.claimedIds
    exact ⟨ids, uuids, processedIds, claimedIds⟩
  · intro store store' consistent step
    obtain ⟨ids, uuids⟩ := step.unprocessedEffect.nodup consistent.ids consistent.uuids
    rcases step.processed with same | ⟨id, unique, processed⟩
    · have processedIds := consistent.processedIds
      have claimedIds := consistent.claimedIds
      unfold Store.processedIds at processedIds
      unfold Store.claimedIds at claimedIds
      rw [← same] at processedIds claimedIds
      exact ⟨ids, uuids, processedIds, claimedIds⟩
    · obtain ⟨processedIds, claimedIds⟩ := unique.nodup consistent.processedIds consistent.claimedIds
      unfold Store.processedIds at processedIds
      unfold Store.claimedIds at claimedIds
      rw [← processed] at processedIds claimedIds
      exact ⟨ids, uuids, processedIds, claimedIds⟩

/-! ### Rows belong to one request -/

theorem Store.not_mem_processed {store : Store} {id : Nat} {queuedId : Option Nat}
    (unique : id ∉ store.processedIds) : (id, queuedId) ∉ store.processed := by
  intro member
  exact unique (List.mem_map.mpr ⟨_, member, rfl⟩)

theorem broker_disciplined (config : BrokerConfig) :
    Disciplined (broker config) Store.Consistent (fun request : Request => request.pc.row)
      (fun store => {row | row ∈ store.processed}) := by
  constructor
  · intro store own store' own' row _ step recorded held
    have effect : ProcessedEffect store own store' own' := RequestStep.processedEffect step
    cases effect with
    | quiet same rowAfter =>
        rcases rowAfter with noRow | sameRow
        · rw [noRow] at held
          cases held
        · rw [sameRow] at held
          have inTable : row ∈ store.processed := recorded row held
          rw [← same] at inTable
          exact ⟨inTable, .inl held⟩
    | inserted id queuedId unique processed rowAfter =>
        rw [rowAfter] at held
        obtain rfl := Option.some.inj held
        constructor
        · show (id, queuedId) ∈ store'.processed
          rw [processed]
          exact List.mem_cons_self
        · exact .inr (Store.not_mem_processed unique.1)
    | replaced id newId unique processed rowBefore rowAfter =>
        rw [rowAfter] at held
        obtain rfl := Option.some.inj held
        constructor
        · show (newId, none) ∈ store'.processed
          rw [processed]
          exact List.mem_map.mpr ⟨(id, none), recorded (id, none) rowBefore, if_pos rfl⟩
        · exact .inr (Store.not_mem_processed unique)
  · intro store own store' own' row consistent step recorded inTable lacks
    have effect : ProcessedEffect store own store' own' := RequestStep.processedEffect step
    show row ∈ store'.processed
    cases effect with
    | quiet same rowAfter =>
        rw [same]
        exact inTable
    | inserted id queuedId unique processed rowAfter =>
        rw [processed]
        exact List.mem_cons_of_mem _ inTable
    | replaced id newId unique processed rowBefore rowAfter =>
        rw [processed]
        refine List.mem_map.mpr ⟨row, inTable, if_neg ?_⟩
        -- The only row with the replaced id is the one the request itself holds.
        intro isOld
        obtain ⟨rowId, rowQueued⟩ := row
        obtain rfl : rowId = id := isOld
        have sameQueued := Store.Consistent.processed_row consistent inTable
          (recorded (rowId, none) rowBefore)
        rw [sameQueued] at lacks
        exact lacks rowBefore
  · intro store store' step row inTable
    show row ∈ store'.processed
    rcases EnvironmentStep.processed step with same | ⟨id, -, processed⟩
    · rw [same]
      exact inTable
    · rw [processed]
      exact List.mem_cons_of_mem _ inTable

/-- No two requests in flight hold one row, and none holds a row that is already processed. -/
theorem Serving.exclusive {config : BrokerConfig} {serving : Serving} (reached : Reached config serving) :
    Exclusive (fun request : Request => request.pc.row) (fun store => {row | row ∈ store.processed})
      serving :=
  (broker_disciplined config).exclusive (fun earlier => Serving.consistent earlier) (fun _ => rfl) reached

/-! ### Rows and uuids -/

/-- The row of `suggestions` that a request works with. -/
def Pc.unprocessedRow : Pc → Option (Nat × Uuid)
  | .insertProcessed _ uuid id => some (id, uuid)
  | .removeFromHash _ uuid id => some (id, uuid)
  | .removeFromSortedSet _ uuid id => some (id, uuid)
  | .deleteQueued _ uuid id => some (id, uuid)
  | .findMatching uuid id => some (id, uuid)
  | .replaceUpdate _ replacement newId => some (newId, replacement)
  | .returned uuid id _ => some (id, uuid)
  | _ => none

@[simp] theorem Pc.unprocessedRow_queuedLoop (rounds : Nat) :
    (Pc.queuedLoop rounds).unprocessedRow = none := by
  cases rounds <;> rfl

@[simp] theorem Pc.unprocessedRow_afterLoop (config : BrokerConfig) :
    (Pc.afterLoop config).unprocessedRow = none := by
  unfold Pc.afterLoop
  split <;> rfl

@[simp] theorem Pc.unprocessedRow_nextLoop (config : BrokerConfig) (rounds : Nat) :
    (Pc.nextLoop config rounds).unprocessedRow = none := by
  cases rounds with
  | zero => exact Pc.unprocessedRow_afterLoop config
  | succ rounds => rfl

/-- The row a request works with is in the table. -/
def Request.Linked (store : Store) (request : Request) : Prop :=
  ∀ row, request.pc.unprocessedRow = some row → row ∈ store.unprocessed

theorem Request.Linked.of_none {store : Store} {request : Request}
    (none : request.pc.unprocessedRow = none) : request.Linked store := by
  intro row isRow
  rw [none] at isRow
  cases isRow

theorem Request.Linked.mono {store store' : Store} {request other : Request}
    (linked : request.Linked store) (subset : store.unprocessed ⊆ store'.unprocessed)
    (same : other.pc.unprocessedRow = request.pc.unprocessedRow) : other.Linked store' := by
  intro row isRow
  rw [same] at isRow
  exact subset (linked row isRow)

/-- A step keeps the request linked to the store. -/
theorem RequestStep.linked {config : BrokerConfig} {store store' : Store} {own own' : Request}
    (step : RequestStep config store own store' own') (linked : own.Linked store) :
    own'.Linked store' := by
  cases step with
  | createUnprocessed uuid unique =>
      intro row isRow
      obtain rfl := Option.some.inj isRow
      exact List.mem_cons_self
  | insertUnprocessed unique =>
      intro row isRow
      obtain rfl := Option.some.inj isRow
      exact List.mem_cons_self
  | fetchUnprocessed id inTable =>
      intro row isRow
      obtain rfl := Option.some.inj isRow
      exact inTable
  | replaceInsert unique =>
      intro row isRow
      obtain rfl := Option.some.inj isRow
      exact List.mem_cons_self
  | insertProcessed unique => exact linked.mono (List.Subset.refl _) rfl
  | removeFromHash => exact linked.mono (List.Subset.refl _) rfl
  | removeFromSortedSet => exact linked.mono (List.Subset.refl _) rfl
  | removeFromHashFailed => exact linked.mono (List.Subset.refl _) rfl
  | removeFromSortedSetFailed => exact linked.mono (List.Subset.refl _) rfl
  | deleteQueued => exact linked.mono (List.Subset.refl _) rfl
  | processed notQueued => exact linked.mono (List.Subset.refl _) rfl
  | noConflict => exact linked.mono (List.Subset.refl _) rfl
  | replaceUpdate unique => exact linked.mono (List.Subset.refl _) rfl
  | _ => exact .of_none (by first | rfl | simp)

/-- Every request of a reached state is linked to the store. -/
theorem Serving.linked {config : BrokerConfig} {serving : Serving} (reached : Reached config serving) :
    ∀ request, (serving.locals request).Linked serving.store := by
  apply reached.localInvariant (fun _ => True) (fun store request => request.Linked store)
  · intro _ _
    trivial
  · intro request
    exact .of_none rfl
  · intro store own store' own' _ linked step
    exact RequestStep.linked step linked
  · intro store own store' own' other _ linked step
    exact linked.mono (RequestStep.unprocessedEffect step).subset rfl
  · intro store store' other _ linked step
    exact linked.mono (EnvironmentStep.unprocessedEffect step).subset rfl

/-! ### Lost candidates -/

/-- The uuid a request is about to serve, or about to remove after it lost it. -/
def Pc.candidate : Pc → Option Uuid
  | .lostHash _ uuid => some uuid
  | .reserveId _ uuid => some uuid
  | .insertUnprocessed _ uuid _ => some uuid
  | .fetchUnprocessed _ uuid => some uuid
  | .insertProcessed _ uuid _ => some uuid
  | .removeFromHash _ uuid _ => some uuid
  | .removeFromSortedSet _ uuid _ => some uuid
  | .deleteQueued _ uuid _ => some uuid
  | .findMatching uuid _ => some uuid
  | .replaceReserveId _ replacement => some replacement
  | .replaceInsert _ replacement _ => some replacement
  | .replaceUpdate _ replacement _ => some replacement
  | .returned uuid _ _ => some uuid
  | _ => none

@[simp] theorem Pc.candidate_queuedLoop (rounds : Nat) : (Pc.queuedLoop rounds).candidate = none := by
  cases rounds <;> rfl

@[simp] theorem Pc.candidate_afterLoop (config : BrokerConfig) :
    (Pc.afterLoop config).candidate = none := by
  unfold Pc.afterLoop
  split <;> rfl

@[simp] theorem Pc.candidate_nextLoop (config : BrokerConfig) (rounds : Nat) :
    (Pc.nextLoop config rounds).candidate = none := by
  cases rounds with
  | zero => exact Pc.candidate_afterLoop config
  | succ rounds => rfl

/-- The four ways in which a step treats candidates: it keeps or drops the one it has, takes one out of
    Redis, makes a new one, or removes from Redis the one it lost. -/
inductive CandidateEffect (store : Store) (own : Request) (store' : Store) (own' : Request) : Prop where
  | kept (candidate : own'.pc.candidate = none ∨ own'.pc.candidate = own.pc.candidate)
      (lost : own'.lost = own.lost) (hash : store'.hash ⊆ store.hash)
      (generated : store'.generated = store.generated)
  | stored (uuid : Uuid) (inHash : uuid ∈ store.hash) (candidate : own'.pc.candidate = some uuid)
      (lost : own'.lost = own.lost) (same : store' = store)
  | made (uuid : Uuid) (generated : store'.generated = uuid :: store.generated)
      (candidate : own'.pc.candidate = some uuid) (lost : own'.lost = own.lost)
      (hash : store'.hash = store.hash)
  | removed (uuid : Uuid) (candidate : own.pc.candidate = some uuid) (after : own'.pc.candidate = none)
      (lost : own'.lost = uuid :: own.lost) (hash : store'.hash ⊆ store.hash) (gone : uuid ∉ store'.hash)
      (generated : store'.generated = store.generated)

theorem Store.removeFromHash_subset (store : Store) (uuid : Uuid) :
    (store.removeFromHash uuid).hash ⊆ store.hash := List.filter_subset_self _

theorem Store.not_mem_removeFromHash (store : Store) (uuid : Uuid) :
    uuid ∉ (store.removeFromHash uuid).hash := by
  simp [Store.removeFromHash]

theorem RequestStep.candidateEffect {config : BrokerConfig} {store store' : Store} {own own' : Request}
    (step : RequestStep config store own store' own') : CandidateEffect store own store' own' := by
  have subset : store.hash ⊆ store.hash := List.Subset.refl _
  cases step with
  | sampledStored uuid inHash => exact .stored uuid inHash rfl rfl rfl
  | createUnprocessed uuid unique => exact .made uuid rfl rfl rfl rfl
  | sampledNew uuid => exact .made uuid rfl rfl rfl rfl
  | fallbackRandom uuid => exact .made uuid rfl rfl rfl rfl
  | conflict replacement allowed => exact .made replacement rfl rfl rfl rfl
  | lostHash =>
      exact .removed _ rfl rfl rfl (store.removeFromHash_subset _) (store.not_mem_removeFromHash _) rfl
  | removeFromHash => exact .kept (.inr rfl) rfl (store.removeFromHash_subset _) rfl
  | begin => exact .kept (.inl (by simp)) rfl subset rfl
  | foundNone none => exact .kept (.inl (by simp)) rfl subset rfl
  | sampledNone => exact .kept (.inl (by simp)) rfl subset rfl
  | ignored => exact .kept (.inl (by simp)) rfl subset rfl
  | alreadyProcessedQueued taken => exact .kept (.inl (by simp)) rfl subset rfl
  | lostSortedSet => exact .kept (.inl (by simp)) rfl subset rfl
  | lostHashFailed => exact .kept (.inl (by simp)) rfl subset rfl
  | lostSortedSetFailed => exact .kept (.inl (by simp)) rfl subset rfl
  | tolerated inside allowed => exact .kept (.inl (by simp)) rfl subset rfl
  | readClaimed => exact .kept (.inl rfl) rfl subset rfl
  | foundNext found => exact .kept (.inl rfl) rfl subset rfl
  | raised running => exact .kept (.inl rfl) rfl subset rfl
  | _ => exact .kept (.inr rfl) rfl subset rfl

/-- What a request lost and removed is out of Redis for good, and is not its candidate. -/
structure Request.Elsewhere (store : Store) (request : Request) : Prop where
  named : ∀ uuid, request.pc.candidate = some uuid → uuid ∈ store.generated
  removed : ∀ uuid ∈ request.lost, uuid ∈ store.generated ∧ uuid ∉ store.hash
  avoided : ∀ uuid ∈ request.lost, request.pc.candidate ≠ some uuid

theorem CandidateEffect.elsewhere {store store' : Store} {own own' : Request}
    (effect : CandidateEffect store own store' own') (known : store.hash ⊆ store.generated)
    (fresh : store'.generated.Nodup) (elsewhere : own.Elsewhere store) : own'.Elsewhere store' := by
  cases effect with
  | kept candidate lost hash generated =>
      have noNew : ∀ uuid, own'.pc.candidate = some uuid → own.pc.candidate = some uuid := by
        intro uuid isCandidate
        rcases candidate with none | same
        · rw [none] at isCandidate
          cases isCandidate
        · rwa [same] at isCandidate
      constructor
      · intro uuid isCandidate
        rw [generated]
        exact elsewhere.named uuid (noNew uuid isCandidate)
      · intro uuid wasLost
        rw [lost] at wasLost
        obtain ⟨inGenerated, gone⟩ := elsewhere.removed uuid wasLost
        rw [generated]
        exact ⟨inGenerated, fun inHash => gone (hash inHash)⟩
      · intro uuid wasLost isCandidate
        rw [lost] at wasLost
        exact elsewhere.avoided uuid wasLost (noNew uuid isCandidate)
  | stored uuid inHash candidate lost same =>
      subst same
      constructor
      · intro other isCandidate
        rw [candidate] at isCandidate
        obtain rfl := Option.some.inj isCandidate
        exact known inHash
      · intro other wasLost
        rw [lost] at wasLost
        exact elsewhere.removed other wasLost
      · intro other wasLost isCandidate
        rw [lost] at wasLost
        rw [candidate] at isCandidate
        obtain rfl := Option.some.inj isCandidate
        exact (elsewhere.removed uuid wasLost).2 inHash
  | made uuid generated candidate lost hash =>
      rw [generated, List.nodup_cons] at fresh
      constructor
      · intro other isCandidate
        rw [candidate] at isCandidate
        obtain rfl := Option.some.inj isCandidate
        rw [generated]
        exact List.mem_cons_self
      · intro other wasLost
        rw [lost] at wasLost
        obtain ⟨inGenerated, gone⟩ := elsewhere.removed other wasLost
        rw [generated, hash]
        exact ⟨List.mem_cons_of_mem _ inGenerated, gone⟩
      · intro other wasLost isCandidate
        rw [lost] at wasLost
        rw [candidate] at isCandidate
        obtain rfl := Option.some.inj isCandidate
        exact fresh.1 (elsewhere.removed uuid wasLost).1
  | removed uuid candidate after lost hash gone generated =>
      constructor
      · intro other isCandidate
        rw [after] at isCandidate
        cases isCandidate
      · intro other wasLost
        rw [generated]
        rw [lost] at wasLost
        rcases List.mem_cons.mp wasLost with rfl | earlier
        · exact ⟨elsewhere.named other candidate, gone⟩
        · obtain ⟨inGenerated, goneBefore⟩ := elsewhere.removed other earlier
          exact ⟨inGenerated, fun inHash => goneBefore (hash inHash)⟩
      · intro other _ isCandidate
        rw [after] at isCandidate
        cases isCandidate

/-- The steps of others leave a request's lost uuids out of Redis. -/
theorem Request.Elsewhere.mono {store store' : Store} {request : Request}
    (elsewhere : request.Elsewhere store) (generated : store.generated ⊆ store'.generated)
    (hash : ∀ uuid ∈ store.generated, uuid ∈ store'.hash → uuid ∈ store.hash) :
    request.Elsewhere store' := by
  constructor
  · intro uuid isCandidate
    exact generated (elsewhere.named uuid isCandidate)
  · intro uuid wasLost
    obtain ⟨inGenerated, gone⟩ := elsewhere.removed uuid wasLost
    exact ⟨generated inGenerated, fun inHash => gone (hash uuid inGenerated inHash)⟩
  · exact elsewhere.avoided

/-- What was generated stays on record, and the hash only loses members. -/
theorem CandidateEffect.generated {store store' : Store} {own own' : Request}
    (effect : CandidateEffect store own store' own') :
    store'.hash ⊆ store.hash ∧ store.generated <:+ store'.generated := by
  cases effect with
  | kept _ _ hash generated => exact ⟨hash, generated ▸ List.suffix_refl _⟩
  | stored _ _ _ _ same => exact same ▸ ⟨List.Subset.refl _, List.suffix_refl _⟩
  | made uuid generated _ _ hash =>
      exact ⟨hash ▸ List.Subset.refl _, generated ▸ List.suffix_cons uuid store.generated⟩
  | removed _ _ _ _ hash _ generated => exact ⟨hash, generated ▸ List.suffix_refl _⟩

/-- The environment puts only new uuids into Redis. -/
theorem EnvironmentStep.generated {store store' : Store} (step : EnvironmentStep store store') :
    (store'.hash ⊆ store.hash ∧ store.generated <:+ store'.generated) ∨
      ∃ uuid, store'.hash = uuid :: store.hash ∧ store'.generated = uuid :: store.generated := by
  cases step with
  | storeInHash uuid => exact .inr ⟨uuid, rfl, rfl⟩
  | storeInSortedSet uuid => exact .inl ⟨List.Subset.refl _, List.suffix_refl _⟩
  | dropFromHash uuid => exact .inl ⟨store.removeFromHash_subset uuid, List.suffix_refl _⟩
  | dropFromSortedSet uuid => exact .inl ⟨List.Subset.refl _, List.suffix_refl _⟩
  | enqueue queuedId => exact .inl ⟨List.Subset.refl _, List.suffix_refl _⟩
  | deleteQueued queuedId => exact .inl ⟨List.Subset.refl _, List.suffix_refl _⟩
  | explicitUnprocessed uuid unique => exact .inl ⟨List.Subset.refl _, List.suffix_cons _ _⟩
  | explicitProcessed id unique => exact .inl ⟨List.Subset.refl _, List.suffix_refl _⟩

theorem Serving.hash_generated {config : BrokerConfig} {serving : Serving}
    (reached : Reached config serving) : serving.store.hash ⊆ serving.store.generated := by
  apply reached.storeInvariant fun store => store.hash ⊆ store.generated
  · exact List.Subset.refl _
  · intro store own store' own' known step
    obtain ⟨hash, generated⟩ := (RequestStep.candidateEffect step).generated
    exact fun uuid inHash => generated.subset (known (hash inHash))
  · intro store store' known step
    rcases EnvironmentStep.generated step with ⟨hash, generated⟩ | ⟨uuid, hash, generated⟩
    · exact fun other inHash => generated.subset (known (hash inHash))
    · rw [hash, generated]
      exact List.cons_subset_cons uuid known

/-- As long as no uuid was generated twice, lost candidates stay lost. -/
theorem Serving.elsewhere {config : BrokerConfig} {serving : Serving} (reached : Reached config serving) :
    ∀ request, serving.store.generated.Nodup →
      (serving.locals request).Elsewhere serving.store := by
  apply reached.localInvariant (fun store => store.hash ⊆ store.generated)
    (fun store request => store.generated.Nodup → request.Elsewhere store)
  · intro configuration earlier
    exact Serving.hash_generated earlier
  · intro request _
    exact ⟨fun uuid isCandidate => (by cases isCandidate), fun uuid wasLost => (by cases wasLost),
      fun uuid wasLost => (by cases wasLost)⟩
  · intro store own store' own' known elsewhere step fresh
    have effect := RequestStep.candidateEffect step
    exact effect.elsewhere known fresh (elsewhere (fresh.sublist effect.generated.2.sublist))
  · intro store own store' own' other known elsewhere step fresh
    obtain ⟨hash, generated⟩ := (RequestStep.candidateEffect step).generated
    exact (elsewhere (fresh.sublist generated.sublist)).mono generated.subset fun _ _ inHash => hash inHash
  · intro store store' other known elsewhere step fresh
    rcases EnvironmentStep.generated step with ⟨hash, generated⟩ | ⟨uuid, hash, generated⟩
    · exact (elsewhere (fresh.sublist generated.sublist)).mono generated.subset
        fun _ _ inHash => hash inHash
    · rw [generated, List.nodup_cons] at fresh
      apply (elsewhere fresh.2).mono
      · rw [generated]
        exact List.subset_cons_self _ _
      · intro other' inGenerated inHash
        rw [hash] at inHash
        rcases List.mem_cons.mp inHash with rfl | inHashBefore
        · exact False.elim (fresh.1 inGenerated)
        · exact inHashBefore

/-! ### Served once -/

/-- The uuid a request returned. -/
def Pc.servedUuid : Pc → Option Uuid
  | .returned uuid _ _ => some uuid
  | _ => none

/-- The queued suggestion a request returned. -/
def Pc.servedQueued : Pc → Option Nat
  | .returned _ _ queuedId => queuedId
  | _ => none

theorem Pc.servedUuid_eq_some {pc : Pc} {uuid : Uuid} (served : pc.servedUuid = some uuid) :
    ∃ id queuedId, pc = .returned uuid id queuedId := by
  cases pc with
  | returned found id queuedId =>
      obtain rfl := Option.some.inj served
      exact ⟨id, queuedId, rfl⟩
  | _ => cases served

theorem Pc.servedQueued_eq_some {pc : Pc} {queuedId : Nat} (served : pc.servedQueued = some queuedId) :
    ∃ uuid id, pc = .returned uuid id (some queuedId) := by
  cases pc with
  | returned uuid id found =>
      obtain rfl : found = some queuedId := served
      exact ⟨uuid, id, rfl⟩
  | _ => cases served

/-! ### Lost races -/

/-- The insert of the processed row is refused, or has been and the candidate is being removed from Redis. -/
def Request.LostRace (store : Store) (request : Request) : Prop :=
  (∃ caller uuid id, request.pc = .insertProcessed caller uuid id ∧
    ¬ store.CanInsertProcessed id caller.queuedId) ∨
  (∃ rounds uuid, request.pc = .lostHash rounds uuid) ∨ ∃ rounds uuid, request.pc = .lostSortedSet rounds uuid

/-- The way of a request that lost a race to the head of its loop, which takes the next round if one is left. Nothing
    catches the exception for the random fallback. -/
def Pc.onward (config : BrokerConfig) : Pc → List Pc
  | .insertProcessed (.queued rounds _) _ _ => [.queuedLoop rounds]
  | .insertProcessed (.next rounds) uuid _ => [.lostHash rounds uuid]
  | .lostHash rounds uuid => [.lostSortedSet rounds uuid, .nextLoop config rounds]
  | .lostSortedSet rounds _ => [.nextLoop config rounds]
  | _ => []

/-- Another exception ends the request, or is tolerated and ends its loop. -/
def Pc.Raises (config : BrokerConfig) (pc after : Pc) : Prop :=
  after = .failed ∨ pc.tolerant = true ∧ config.forbidRandomFallback = false ∧ after = .afterLoop config

/-- The request has no processed row, and what it does next is to go on to its loop, unless it raises. -/
structure Request.Retries (config : BrokerConfig) (store : Store) (request : Request) : Prop where
  possible : ∀ pc ∈ request.pc.onward config, ∃ store' lost, RequestStep config store request store' ⟨pc, lost⟩
  only : ∀ store' own', RequestStep config store request store' own' →
    (own'.pc ∈ request.pc.onward config ∨ request.pc.Raises config own'.pc) ∧ own'.pc.row = none ∧
      store'.processed = store.processed

theorem RequestStep.retries {config : BrokerConfig} {store : Store} {own : Request} (lost : own.LostRace store) :
    own.Retries config store := by
  obtain ⟨pc, before⟩ := own
  constructor
  · intro next isNext
    rcases lost with ⟨caller, uuid, id, rfl, refused⟩ | ⟨rounds, uuid, rfl⟩ | ⟨rounds, uuid, rfl⟩
    · cases caller with
      | queued rounds queuedId =>
          obtain rfl := List.mem_singleton.mp isNext
          exact ⟨_, _, .alreadyProcessedQueued refused⟩
      | next rounds =>
          obtain rfl := List.mem_singleton.mp isNext
          exact ⟨_, _, .alreadyProcessedNext refused⟩
      | fallback => exact absurd isNext List.not_mem_nil
    · rcases List.mem_cons.mp isNext with rfl | isLast
      · exact ⟨_, _, .lostHash⟩
      · obtain rfl := List.mem_singleton.mp isLast
        exact ⟨_, _, .lostHashFailed⟩
    · obtain rfl := List.mem_singleton.mp isNext
      exact ⟨_, _, .lostSortedSet⟩
  · intro store' own' step
    cases step with
    | insertProcessed allowed =>
        rcases lost with ⟨caller, uuid, id, same, refused⟩ | ⟨_, _, impossible⟩ | ⟨_, _, impossible⟩
        · simp only [Pc.insertProcessed.injEq] at same
          obtain ⟨rfl, -, rfl⟩ := same
          exact absurd allowed refused
        · cases impossible
        · cases impossible
    | alreadyProcessedQueued taken => exact ⟨.inl List.mem_cons_self, Pc.row_queuedLoop _, rfl⟩
    | alreadyProcessedNext taken => exact ⟨.inl List.mem_cons_self, rfl, rfl⟩
    | lostHash => exact ⟨.inl List.mem_cons_self, rfl, rfl⟩
    | lostHashFailed => exact ⟨.inl (List.mem_cons_of_mem _ List.mem_cons_self), Pc.row_nextLoop config _, rfl⟩
    | lostSortedSet => exact ⟨.inl List.mem_cons_self, Pc.row_nextLoop config _, rfl⟩
    | lostSortedSetFailed => exact ⟨.inl List.mem_cons_self, Pc.row_nextLoop config _, rfl⟩
    | tolerated inside allowed => exact ⟨.inr (.inr ⟨inside, allowed, rfl⟩), Pc.row_afterLoop config, rfl⟩
    | raised running => exact ⟨.inr (.inl rfl), rfl, rfl⟩
    | _ => simp [Request.LostRace] at lost

/-- The queued suggestion that a request is about to serve, or served. -/
def Pc.queuedCandidate : Pc → Option Nat
  | .createUnprocessed _ queuedId => some queuedId
  | .reserveId caller _ => caller.queuedId
  | .insertUnprocessed caller _ _ => caller.queuedId
  | .fetchUnprocessed caller _ => caller.queuedId
  | .insertProcessed caller _ _ => caller.queuedId
  | .removeFromHash caller _ _ => caller.queuedId
  | .removeFromSortedSet caller _ _ => caller.queuedId
  | .deleteQueued caller _ _ => caller.queuedId
  | .returned _ _ queuedId => queuedId
  | _ => none

@[simp] theorem Pc.queuedCandidate_queuedLoop (rounds : Nat) : (Pc.queuedLoop rounds).queuedCandidate = none := by
  cases rounds <;> rfl

@[simp] theorem Pc.queuedCandidate_afterLoop (config : BrokerConfig) : (Pc.afterLoop config).queuedCandidate = none := by
  unfold Pc.afterLoop
  split <;> rfl

@[simp] theorem Pc.queuedCandidate_nextLoop (config : BrokerConfig) (rounds : Nat) :
    (Pc.nextLoop config rounds).queuedCandidate = none := by
  cases rounds with
  | zero => exact Pc.queuedCandidate_afterLoop config
  | succ rounds => rfl

/-- The ids that a request has read as claimed. -/
def Pc.readIds : Pc → Option (List Nat)
  | .findNext _ claimedIds => some claimedIds
  | _ => none

@[simp] theorem Pc.readIds_queuedLoop (rounds : Nat) : (Pc.queuedLoop rounds).readIds = none := by
  cases rounds <;> rfl

@[simp] theorem Pc.readIds_afterLoop (config : BrokerConfig) : (Pc.afterLoop config).readIds = none := by
  unfold Pc.afterLoop
  split <;> rfl

@[simp] theorem Pc.readIds_nextLoop (config : BrokerConfig) (rounds : Nat) :
    (Pc.nextLoop config rounds).readIds = none := by
  cases rounds with
  | zero => exact Pc.readIds_afterLoop config
  | succ rounds => rfl

theorem Store.findNext_not_mem {store : Store} {claimedIds : List Nat} {queuedId : Nat}
    (found : store.findNext claimedIds = some queuedId) : queuedId ∉ claimedIds := by
  have member := List.min?_mem found
  exact of_decide_eq_true (List.mem_filter.mp member).2

/-- A queued suggestion that is claimed is not the request's, and not the one it will find with the ids it has read. -/
structure Request.Avoids (store : Store) (queuedId : Nat) (request : Request) : Prop where
  claimed : queuedId ∈ store.claimedIds
  candidate : request.pc.queuedCandidate ≠ some queuedId
  read : ∀ claimedIds, request.pc.readIds = some claimedIds → queuedId ∈ claimedIds

theorem RequestStep.claimedIds {config : BrokerConfig} {store store' : Store} {own own' : Request}
    (step : RequestStep config store own store' own') : store.claimedIds ⊆ store'.claimedIds := by
  cases RequestStep.processedEffect step with
  | quiet same => rw [Store.claimedIds, Store.claimedIds, same]; exact List.Subset.refl _
  | inserted id queuedId _ processed =>
      rw [Store.claimedIds, Store.claimedIds, processed]
      intro claimed isClaimed
      cases queuedId with
      | none => exact isClaimed
      | some queued => exact List.mem_cons_of_mem _ isClaimed
  | replaced id newId _ processed =>
      have same : store'.claimedIds = store.claimedIds := by
        rw [← Store.replaceProcessed_claimedIds store id newId, Store.claimedIds, Store.claimedIds, processed]
      rw [same]
      exact List.Subset.refl _

theorem EnvironmentStep.claimedIds {store store' : Store} (step : EnvironmentStep store store') :
    store.claimedIds ⊆ store'.claimedIds := by
  rcases EnvironmentStep.processed step with same | ⟨id, _, same⟩
  · rw [Store.claimedIds, Store.claimedIds, same]
    exact List.Subset.refl _
  · rw [Store.claimedIds, Store.claimedIds, same]
    exact List.Subset.refl _

/-- Only the search behind the read of the claimed ids comes up with a queued suggestion. -/
theorem RequestStep.avoids {config : BrokerConfig} {store store' : Store} {own own' : Request} {queuedId : Nat}
    (avoids : own.Avoids store queuedId) (step : RequestStep config store own store' own') :
    own'.Avoids store' queuedId := by
  have claimed := RequestStep.claimedIds step avoids.claimed
  have quiet : (own'.pc.queuedCandidate = none ∨ own'.pc.queuedCandidate = own.pc.queuedCandidate) →
      own'.pc.readIds = none → own'.Avoids store' queuedId := by
    intro candidate noRead
    refine ⟨claimed, ?_, ?_⟩
    · rcases candidate with none | same
      · rw [none]
        exact Option.some_ne_none queuedId |>.symm
      · rw [same]
        exact avoids.candidate
    · intro claimedIds isRead
      rw [noRead] at isRead
      cases isRead
  cases step with
  | readClaimed =>
      refine ⟨claimed, Option.some_ne_none queuedId |>.symm, ?_⟩
      intro claimedIds isRead
      obtain rfl := Option.some.inj isRead
      exact avoids.claimed
  | foundNext found =>
      refine ⟨claimed, ?_, ?_⟩
      · intro same
        obtain rfl := Option.some.inj same
        exact Store.findNext_not_mem found (avoids.read _ rfl)
      · intro claimedIds isRead
        cases isRead
  | begin => exact quiet (.inl (by simp)) (by simp)
  | foundNone none => exact quiet (.inl (by simp)) (by simp)
  | sampledNone => exact quiet (.inl (by simp)) (by simp)
  | ignored => exact quiet (.inl (by simp)) (by simp)
  | alreadyProcessedQueued taken => exact quiet (.inl (by simp)) (by simp)
  | lostSortedSet => exact quiet (.inl (by simp)) (by simp)
  | lostHashFailed => exact quiet (.inl (by simp)) (by simp)
  | lostSortedSetFailed => exact quiet (.inl (by simp)) (by simp)
  | tolerated inside allowed => exact quiet (.inl (by simp)) (by simp)
  | reserveId => exact quiet (.inr rfl) rfl
  | createUnprocessed uuid unique => exact quiet (.inr rfl) rfl
  | insertUnprocessed unique => exact quiet (.inr rfl) rfl
  | duplicateUnprocessed duplicate => exact quiet (.inr rfl) rfl
  | fetchUnprocessed id row => exact quiet (.inr rfl) rfl
  | insertProcessed unique => exact quiet (.inr rfl) rfl
  | removeFromHash => exact quiet (.inr rfl) rfl
  | removeFromHashFailed => exact quiet (.inr rfl) rfl
  | removeFromSortedSet => exact quiet (.inr rfl) rfl
  | removeFromSortedSetFailed => exact quiet (.inr rfl) rfl
  | deleteQueued => exact quiet (.inr rfl) rfl
  | _ => exact quiet (.inl rfl) rfl

/-- A queued suggestion that is claimed at the head of a round is not the request's from there on. -/
theorem Serving.avoids {config : BrokerConfig} {serving later : Serving}
    (reached : Interleaving.Reachable (broker config) serving later) {request queuedId : Nat}
    (initially : (serving.locals request).Avoids serving.store queuedId) :
    (later.locals request).Avoids later.store queuedId := by
  apply reached.invariant (fun configuration => (configuration.locals request).Avoids configuration.store queuedId)
    initially
  intro before after avoids stepped
  cases stepped with
  | @agent store store' locals own moving move =>
      by_cases same : request = moving
      · subst same
        simp only [Function.update_self]
        exact RequestStep.avoids avoids move
      · simp only [Function.update_of_ne same]
        exact ⟨RequestStep.claimedIds move avoids.claimed, avoids.candidate, avoids.read⟩
  | environment move => exact ⟨EnvironmentStep.claimedIds move avoids.claimed, avoids.candidate, avoids.read⟩

/-- A step of one request is a step of the broker. -/
theorem Serving.request {config : BrokerConfig} {start : Serving} {store store' : Store} {locals : Nat → Request}
    {own : Request} (moving : Nat) (step : RequestStep config store (locals moving) store' own)
    (reached : Interleaving.Reachable (broker config) start ⟨store, locals⟩) :
    Interleaving.Reachable (broker config) start ⟨store', Function.update locals moving own⟩ :=
  .step reached (.agent moving step)

theorem Serving.startFrom {config : BrokerConfig} {serving : Serving} (_ : Reached config serving) :
    Interleaving.Reachable (broker config) serving serving := .start

end Zigopt.Suggestion
