/-
Module: Zigopt.Progress.BestObservation
Layer: Progress
Purpose: Which observation the progress of an experiment reports as its best one. All experiments of the
  batch are ranked at each position that the optimized metric of one of them has, the last position wins,
  and positions are those in which values were submitted, while metrics are sorted by name.
Main exports: Leads, IsBest, RightBest, ColumnsAgree, bestObservation_right_iff,
  bestObservation_right_of_single_metrics
-/
import Mathlib.Algebra.Order.Ring.Rat
import Zigopt.Observations.WellFormed
import Zigopt.Progress.Query

namespace Zigopt.Progress

open Observations

/-- The experiments of a page: rows of a table, with its primary key. -/
structure Batch where
  experiments : List Experiment
  distinctIds : (experiments.map (·.id)).Nodup

/-- A batch of one experiment. -/
def Batch.single (experiment : Experiment) : Batch where
  experiments := [experiment]
  distinctIds := List.nodup_singleton _

theorem Batch.eq_of_same_id {batch : Batch} {first second : Experiment} (firstMember : first ∈ batch.experiments)
    (secondMember : second ∈ batch.experiments) (same : first.id = second.id) : first = second :=
  List.inj_on_of_nodup_map batch.distinctIds firstMember secondMember same

theorem Database.eq_of_same_id {database : Database} {first second : ObservationRow}
    (firstMember : first ∈ database.observations) (secondMember : second ∈ database.observations)
    (same : first.id = second.id) : first = second :=
  List.inj_on_of_nodup_map database.distinctIds firstMember secondMember same

/-- The direction of the ranking. -/
def Experiment.objective (experiment : Experiment) : MetricObjective :=
  if experiment.isMinimized then .minimize else .maximize

/-- No other valid observation of the experiment comes first at the position. -/
structure Leads (database : Database) (experiment : Experiment) (index : Nat) (row : ObservationRow) : Prop where
  stored : row ∈ database.observations
  eligible : Eligible experiment.id row
  unpreceded : ∀ other ∈ database.observations, Eligible experiment.id other →
    other.precedes experiment.objective index row = false

/-- At least as good as another value, which may be missing. -/
def AtLeastAsGood (objective : MetricObjective) (best other : Option ℚ) : Prop :=
  ∀ otherValue ∈ other, ∃ bestValue ∈ best,
    match objective with
    | .maximize => otherValue ≤ bestValue
    | .minimize => bestValue ≤ otherValue

/-- The best value of the optimized metric, as it is read under the name of the metric. -/
def OptimalByName (database : Database) (experiment : Experiment) (row : ObservationRow) : Prop :=
  ∀ metric ∈ experiment.optimizedMetrics, ∀ other ∈ database.observations, Eligible experiment.id other →
    AtLeastAsGood metric.objective (row.data.metricValue experiment.toMetricsExperiment metric.name)
      (other.data.metricValue experiment.toMetricsExperiment metric.name)

/-- A valid observation of the experiment with full cost, and a best one of these. -/
structure IsBest (database : Database) (experiment : Experiment) (row : ObservationRow) : Prop where
  stored : row ∈ database.observations
  eligible : Eligible experiment.id row
  optimal : OptimalByName database experiment row

def returnedBest (order : RowOrder) (database : Database) (batch : Batch) (experiment : Experiment) :
    Option ObservationRow :=
  (progressForExperiments database order batch.experiments true experiment.id).bind (·.bestObservation)

/-- What is returned is best, and may be returned in the batch exactly if it may be returned without the
    other experiments. -/
structure RightBest (database : Database) (batch : Batch) (experiment : Experiment) : Prop where
  best : ∀ order row, returnedBest order database batch experiment = some row → IsBest database experiment row
  independent : ∀ answer, (∃ order, returnedBest order database batch experiment = answer) ↔
    ∃ order, returnedBest order database (.single experiment) experiment = answer

/-! ### Rows of rank 1 -/

section Rounds

variable {database : Database} {order : RowOrder}

theorem mem_subquery {experiments : List Experiment} {row : ObservationRow} :
    row ∈ subquery database experiments ↔ row ∈ database.observations ∧ Eligible row.experimentId row ∧
      ∃ e ∈ experiments, e.id = row.experimentId := by
  simp [subquery]

/-- For an experiment that is asked, the answer has its leaders. -/
theorem mem_rankOne {experiments : List Experiment} {index : Nat} {experiment : Experiment} {observationId : Nat} :
    (experiment.id, observationId) ∈ rankOne database experiments experiment.objective index ↔
      (∃ e ∈ experiments, e.id = experiment.id) ∧
        ∃ row, Leads database experiment index row ∧ row.id = observationId := by
  simp only [rankOne, List.mem_map, List.mem_filter, decide_eq_true_eq, Prod.mk.injEq, Ranking.rank_eq_one_iff]
  constructor
  · rintro ⟨row, ⟨selected, first⟩, sameExperiment, sameId⟩
    rcases mem_subquery.mp selected with ⟨stored, eligible, asked⟩
    rw [sameExperiment] at eligible asked
    refine ⟨asked, row, ⟨stored, eligible, ?_⟩, sameId⟩
    intro other otherStored otherEligible
    have sameAsOther : other.experimentId = row.experimentId := otherEligible.1.trans sameExperiment.symm
    refine first other (mem_subquery.mpr ⟨otherStored, ?_, ?_⟩) sameAsOther
    · rw [otherEligible.1]
      exact otherEligible
    · rw [otherEligible.1]
      exact asked
  · rintro ⟨asked, row, leads, sameId⟩
    have sameExperiment := leads.eligible.1
    refine ⟨row, ⟨mem_subquery.mpr ⟨leads.stored, ?_, ?_⟩, ?_⟩, sameExperiment, sameId⟩
    · rw [sameExperiment]
      exact leads.eligible
    · rw [sameExperiment]
      exact asked
    · intro other otherSelected sameAsOther
      rcases mem_subquery.mp otherSelected with ⟨otherStored, otherEligible, _⟩
      rw [sameAsOther, sameExperiment] at otherEligible
      exact leads.unpreceded other otherStored otherEligible

/-- Only experiments that are asked are answered. -/
theorem asked_of_mem_rankOne {experiments : List Experiment} {objective : MetricObjective} {index : Nat}
    {entry : Nat × Nat} (member : entry ∈ rankOne database experiments objective index) :
    ∃ e ∈ experiments, e.id = entry.1 := by
  simp only [rankOne, List.mem_map, List.mem_filter] at member
  rcases member with ⟨row, ⟨selected, _⟩, rfl⟩
  exact (mem_subquery.mp selected).2.2

theorem precedes_irreflexive (objective : MetricObjective) (index : Nat) (row : ObservationRow) :
    row.precedes objective index row = false := by
  cases objective <;> simp [ObservationRow.precedes]

theorem precedes_transitive (objective : MetricObjective) (index : Nat) (first second third : ObservationRow)
    (beforeSecond : first.precedes objective index second) (beforeThird : second.precedes objective index third) :
    first.precedes objective index third := by
  cases objective with
  | maximize =>
      simp only [ObservationRow.precedes, decide_eq_true_eq] at *
      exact beforeThird.trans beforeSecond
  | minimize =>
      simp only [ObservationRow.precedes, decide_eq_true_eq] at *
      exact beforeSecond.trans beforeThird

/-- At every position, some observation leads if there is a valid one at all. -/
theorem exists_leads_iff {experiment : Experiment} {index : Nat} :
    (∃ row, Leads database experiment index row) ↔
      ∃ row ∈ database.observations, Eligible experiment.id row := by
  constructor
  · rintro ⟨row, leads⟩
    exact ⟨row, leads.stored, leads.eligible⟩
  · rintro ⟨row, stored, eligible⟩
    have nonempty : (database.observations.filter fun row => Eligible experiment.id row) ≠ [] :=
      List.ne_nil_of_mem (List.mem_filter.mpr ⟨stored, by simpa using eligible⟩)
    rcases Ranking.exists_unpreceded (precedes_irreflexive experiment.objective index)
      (precedes_transitive experiment.objective index) nonempty with ⟨leader, member, leads⟩
    have leaderIs := List.mem_filter.mp member
    refine ⟨leader, leaderIs.1, by simpa using leaderIs.2, ?_⟩
    intro other otherStored otherEligible
    exact leads other (List.mem_filter.mpr ⟨otherStored, by simpa using otherEligible⟩)

/-- The entries that one round writes. -/
def entriesAt (database : Database) (order : RowOrder) (eligible : List Experiment) (index : Nat) :
    List (Nat × Nat) :=
  [MetricObjective.maximize, .minimize].flatMap fun objective =>
    order.arrange index objective
      (rankOne database (eligible.filter fun e => e.objective = objective) objective index)

theorem partition_isMinimized (eligible : List Experiment) :
    eligible.partition (·.isMinimized) =
      (eligible.filter fun e => e.objective = .minimize, eligible.filter fun e => e.objective = .maximize) := by
  rw [List.partition_eq_filter_filter]
  congr 2
  · funext e
    cases minimized : e.isMinimized <;> simp [Experiment.objective, minimized]
  · funext e
    cases minimized : e.isMinimized <;> simp [Experiment.objective, minimized]

theorem rankOne_nil (objective : MetricObjective) (index : Nat) : rankOne database [] objective index = [] := by
  simp [rankOne, subquery]

theorem bestAtIndex_eq (eligible : List Experiment) (best : Nat → Option Nat) (index : Nat) :
    bestAtIndex database order eligible best index =
      LastWrite.writeAll best (entriesAt database order eligible index) := by
  have skipped : ∀ (experiments : List Experiment) (objective : MetricObjective) (table : Nat → Option Nat),
      (if experiments = [] then
        table
      else
        LastWrite.writeAll table (order.arrange index objective (rankOne database experiments objective index))) =
        LastWrite.writeAll table (order.arrange index objective (rankOne database experiments objective index)) := by
    intro experiments objective table
    split
    · rename_i empty
      rw [empty, rankOne_nil, (order.perm index objective []).eq_nil]
      rfl
    · rfl
  simp only [bestAtIndex, partition_isMinimized, List.foldl_cons, List.foldl_nil, skipped, entriesAt,
    List.flatMap_cons, List.flatMap_nil, List.append_nil, LastWrite.writeAll_append]

theorem bestObservations_eq (experiments : List Experiment) :
    bestObservations database order experiments =
      LastWrite.writeAll (fun _ => none)
        ((LastWrite.firstAppearances ((experiments.filter fun e => e.optimizedMetrics.length = 1).map
          (·.optimizedIndex))).flatMap
            (entriesAt database order (experiments.filter fun e => e.optimizedMetrics.length = 1))) := by
  have rounds : ∀ (eligible : List Experiment) (indexes : List Nat) (best : Nat → Option Nat),
      indexes.foldl (bestAtIndex database order eligible) best =
        LastWrite.writeAll best (indexes.flatMap (entriesAt database order eligible)) := by
    intro eligible indexes
    induction indexes with
    | nil => exact fun _ => rfl
    | cons index rest inductionHypothesis =>
        intro best
        rw [List.foldl_cons, inductionHypothesis, bestAtIndex_eq, List.flatMap_cons, LastWrite.writeAll_append]
  rw [bestObservations, rounds, LastWrite.group_keys]

/-- Among eligible experiments with distinct ids, an experiment is answered in its own direction only. -/
theorem answered_in_own_direction {eligible : List Experiment} {index : Nat} {experiment : Experiment}
    {objective : MetricObjective} (distinct : ∀ e ∈ eligible, e.id = experiment.id → e = experiment)
    {entry : Nat × Nat} (sameId : entry.1 = experiment.id)
    (member : entry ∈ rankOne database (eligible.filter fun e => e.objective = objective) objective index) :
    objective = experiment.objective := by
  rcases asked_of_mem_rankOne member with ⟨e, asked, isEntry⟩
  rcases List.mem_filter.mp asked with ⟨isEligible, direction⟩
  rw [distinct e isEligible (isEntry.trans sameId)] at direction
  exact (of_decide_eq_true direction).symm

/-- The entries of a round about an experiment are the leaders at its position. -/
theorem mem_entriesAt {eligible : List Experiment} {index : Nat} {experiment : Experiment} {observationId : Nat}
    (distinct : ∀ e ∈ eligible, e.id = experiment.id → e = experiment) (asked : experiment ∈ eligible) :
    (experiment.id, observationId) ∈ entriesAt database order eligible index ↔
      ∃ row, Leads database experiment index row ∧ row.id = observationId := by
  have askedHere : ∃ e ∈ eligible.filter (fun e => e.objective = experiment.objective), e.id = experiment.id :=
    ⟨experiment, List.mem_filter.mpr ⟨asked, by simp⟩, rfl⟩
  simp only [entriesAt, List.mem_flatMap, (order.perm _ _ _).mem_iff]
  constructor
  · rintro ⟨objective, -, member⟩
    obtain rfl := answered_in_own_direction distinct rfl member
    exact (mem_rankOne.mp member).2
  · intro leads
    refine ⟨experiment.objective, ?_, mem_rankOne.mpr ⟨askedHere, leads⟩⟩
    cases experiment.objective <;> simp

/-- The order in which a given row comes last. -/
def preferredOrder (entry : Nat × Nat) : RowOrder where
  arrange _ _ rows := LastWrite.preferring entry rows
  perm _ _ rows := LastWrite.preferring_perm entry rows

/-- A round may write any leader. -/
theorem writeAll_preferredOrder {eligible : List Experiment} {index : Nat} {experiment : Experiment}
    {row : ObservationRow} (distinct : ∀ e ∈ eligible, e.id = experiment.id → e = experiment)
    (asked : experiment ∈ eligible) (leads : Leads database experiment index row) (table : Nat → Option Nat) :
    LastWrite.writeAll table (entriesAt database (preferredOrder (experiment.id, row.id)) eligible index)
      experiment.id = some row.id := by
  have member : (experiment.id, row.id) ∈
      rankOne database (eligible.filter fun e => e.objective = experiment.objective) experiment.objective index :=
    mem_rankOne.mpr ⟨⟨experiment, List.mem_filter.mpr ⟨asked, by simp⟩, rfl⟩, row, leads, rfl⟩
  simp only [entriesAt, List.flatMap_cons, List.flatMap_nil, List.append_nil, LastWrite.writeAll_append]
  cases direction : experiment.objective with
  | minimize =>
      rw [direction] at member
      exact LastWrite.writeAll_preferring member
  | maximize =>
      -- the second query has no row of the experiment
      rw [direction] at member
      rw [LastWrite.writeAll_of_not_mem]
      · exact LastWrite.writeAll_preferring member
      · intro entry inSecond sameId
        have inQuery := (LastWrite.preferring_perm _ _).mem_iff.mp inSecond
        have isMinimize := answered_in_own_direction distinct sameId inQuery
        rw [direction] at isMinimize
        cases isMinimize

end Rounds

/-! ### The best observation of the progress -/

section Returned

variable {database : Database} {batch : Batch} {experiment : Experiment}

/-- The experiments whose best observation is asked for. -/
def eligibleExperiments (batch : Batch) : List Experiment :=
  (batch.experiments.filter fun e => !e.runsOnly).filter fun e => e.optimizedMetrics.length = 1

/-- Among the positions of the optimized metrics, in the order of their first appearance, the last. -/
def lastIndex (batch : Batch) : Nat :=
  (LastWrite.firstAppearances ((eligibleExperiments batch).map (·.optimizedIndex))).getLast?.getD 0

theorem mem_eligibleExperiments :
    experiment ∈ eligibleExperiments batch ↔
      experiment ∈ batch.experiments ∧ experiment.runsOnly = false ∧ experiment.optimizedMetrics.length = 1 := by
  rw [eligibleExperiments, List.mem_filter, List.mem_filter]
  simp [and_assoc]

theorem eligible_distinct (member : experiment ∈ batch.experiments) :
    ∀ e ∈ eligibleExperiments batch, e.id = experiment.id → e = experiment := by
  intro e isEligible same
  exact batch.eq_of_same_id (mem_eligibleExperiments.mp isEligible).1 member same

/-- The ids of the best observations, which the rounds of the loop leave. -/
def bestIds (order : RowOrder) (database : Database) (batch : Batch) : Nat → Option Nat :=
  bestObservations database order (batch.experiments.filter fun e => !e.runsOnly)

theorem bestIds_eq (order : RowOrder) (database : Database) (batch : Batch) :
    bestIds order database batch = LastWrite.writeAll (fun _ => none)
      ((LastWrite.firstAppearances ((eligibleExperiments batch).map (·.optimizedIndex))).flatMap
        (entriesAt database order (eligibleExperiments batch))) :=
  bestObservations_eq _

/-- The last round decides. -/
theorem bestIds_eq_lastRound (isEligible : experiment ∈ eligibleExperiments batch) (order : RowOrder)
    (database : Database) :
    ∃ before, bestIds order database batch = LastWrite.writeAll before
      (entriesAt database order (eligibleExperiments batch) (lastIndex batch)) := by
  have hasIndex : LastWrite.firstAppearances ((eligibleExperiments batch).map (·.optimizedIndex)) ≠ [] :=
    List.ne_nil_of_mem (LastWrite.mem_firstAppearances.mpr (List.mem_map_of_mem isEligible))
  have lastIs : (LastWrite.firstAppearances ((eligibleExperiments batch).map (·.optimizedIndex))).getLast hasIndex =
      lastIndex batch := by
    rw [lastIndex, List.getLast?_eq_some_getLast hasIndex]
    rfl
  have split := List.dropLast_append_getLast hasIndex
  rw [lastIs] at split
  rw [bestIds_eq, ← split, List.flatMap_append, LastWrite.writeAll_append]
  simp only [List.flatMap_cons, List.flatMap_nil, List.append_nil]
  exact ⟨_, rfl⟩

/-- What is left for an experiment leads at the last position. -/
theorem bestIds_cases (isEligible : experiment ∈ eligibleExperiments batch) (order : RowOrder) (database : Database) :
    (∃ row, Leads database experiment (lastIndex batch) row ∧
        bestIds order database batch experiment.id = some row.id) ∨
      ((∀ row, ¬Leads database experiment (lastIndex batch) row) ∧
        bestIds order database batch experiment.id = none) := by
  have distinct := eligible_distinct (mem_eligibleExperiments.mp isEligible).1
  by_cases hasLeader : ∃ row, Leads database experiment (lastIndex batch) row
  · left
    rcases hasLeader with ⟨leader, leads⟩
    rcases bestIds_eq_lastRound isEligible order database with ⟨before, decided⟩
    have written : ∃ entry ∈ entriesAt database order (eligibleExperiments batch) (lastIndex batch),
        entry.1 = experiment.id :=
      ⟨_, (mem_entriesAt distinct isEligible).mpr ⟨leader, leads, rfl⟩, rfl⟩
    rcases LastWrite.writeAll_of_mem written with ⟨observationId, member, left⟩
    rcases (mem_entriesAt distinct isEligible).mp member with ⟨row, rowLeads, rfl⟩
    refine ⟨row, rowLeads, ?_⟩
    rw [decided]
    exact left
  · right
    push Not at hasLeader
    refine ⟨hasLeader, ?_⟩
    rw [bestIds_eq]
    apply LastWrite.writeAll_of_not_mem
    rintro ⟨experimentId, observationId⟩ member rfl
    rcases List.mem_flatMap.mp member with ⟨index, _, inRound⟩
    rcases (mem_entriesAt distinct isEligible).mp inRound with ⟨row, leads, _⟩
    -- a leader at any position is a valid observation, so that some observation leads at the last one
    rcases exists_leads_iff.mpr ⟨row, leads.stored, leads.eligible⟩ with ⟨leader, leaderLeads⟩
    exact hasLeader leader leaderLeads

theorem bestIds_of_not_eligible (member : experiment ∈ batch.experiments)
    (notEligible : experiment ∉ eligibleExperiments batch) (order : RowOrder) (database : Database) :
    bestIds order database batch experiment.id = none := by
  rw [bestIds_eq]
  apply LastWrite.writeAll_of_not_mem
  intro entry inRounds sameId
  simp only [List.mem_flatMap, entriesAt, (order.perm _ _ _).mem_iff] at inRounds
  rcases inRounds with ⟨index, _, objective, _, inQuery⟩
  rcases asked_of_mem_rankOne inQuery with ⟨e, asked, isEntry⟩
  have isEligible := (List.mem_filter.mp asked).1
  rw [eligible_distinct member e isEligible (isEntry.trans sameId)] at isEligible
  exact notEligible isEligible

/-- The map of the rows by their ids has each row that was fetched. -/
theorem toMapByKey_of_mem {ids : List Nat} {row : ObservationRow} (member : row ∈ findByIds database ids) :
    toMapByKey (findByIds database ids) row.id = some row := by
  apply LastWrite.writeAll_map_of_mem member
  intro other otherMember same
  exact database.eq_of_same_id (List.mem_filter.mp otherMember).1 (List.mem_filter.mp member).1 same

/-- The rows that are fetched for the progress of the batch. -/
def fetchedObservations (order : RowOrder) (database : Database) (batch : Batch) : List ObservationRow :=
  findByIds database (referredIds database (bestIds order database batch)
    (batch.experiments.filter fun e => !e.runsOnly))

/-- The progress of an experiment with observations has the row of its best id. -/
theorem returnedBest_of_observations (member : experiment ∈ batch.experiments)
    (notRuns : experiment.runsOnly = false) (order : RowOrder) (database : Database) :
    returnedBest order database batch experiment =
      (bestIds order database batch experiment.id).bind (toMapByKey (fetchedObservations order database batch)) := by
  have isObserved : experiment ∈ batch.experiments.filter fun e => !e.runsOnly :=
    List.mem_filter.mpr ⟨member, by simp [notRuns]⟩
  have distinct : ∀ other ∈ batch.experiments.filter (fun e => !e.runsOnly), other.id = experiment.id →
      other = experiment := by
    intro other otherMember same
    exact batch.eq_of_same_id (List.mem_filter.mp otherMember).1 member same
  have written : progressForExperiments database order batch.experiments true experiment.id =
      some (observationProgress database (bestIds order database batch)
        (toMapByKey (fetchedObservations order database batch)) experiment) := by
    rw [progressForExperiments, List.partition_eq_filter_filter]
    exact LastWrite.writeAll_map_of_mem isObserved distinct _
  rw [returnedBest, written]
  rfl

theorem returnedBest_of_runsOnly (member : experiment ∈ batch.experiments) (runs : experiment.runsOnly = true)
    (order : RowOrder) (database : Database) : returnedBest order database batch experiment = none := by
  have isRun : experiment ∈ batch.experiments.filter (·.runsOnly) := List.mem_filter.mpr ⟨member, runs⟩
  have distinct : ∀ other ∈ batch.experiments.filter (·.runsOnly), other.id = experiment.id →
      other = experiment := by
    intro other otherMember same
    exact batch.eq_of_same_id (List.mem_filter.mp otherMember).1 member same
  have written : progressForExperiments database order batch.experiments true experiment.id =
      some (runProgress database experiment) := by
    rw [progressForExperiments, List.partition_eq_filter_filter]
    apply Eq.trans (LastWrite.writeAll_of_not_mem _) (LastWrite.writeAll_map_of_mem isRun distinct _)
    rintro entry entryMember same
    rcases List.mem_map.mp entryMember with ⟨other, otherMember, rfl⟩
    have otherIs := List.mem_filter.mp otherMember
    obtain rfl := batch.eq_of_same_id otherIs.1 member same
    simp [runs] at otherIs
  rw [returnedBest, written]
  rfl

/-- The best id is looked up among the rows that are fetched. -/
theorem returnedBest_of_bestId (isEligible : experiment ∈ eligibleExperiments batch) {order : RowOrder}
    {row : ObservationRow} {index : Nat} (leads : Leads database experiment index row)
    (found : bestIds order database batch experiment.id = some row.id) :
    returnedBest order database batch experiment = some row := by
  rcases mem_eligibleExperiments.mp isEligible with ⟨member, notRuns, _⟩
  have isObserved : experiment ∈ batch.experiments.filter fun e => !e.runsOnly :=
    List.mem_filter.mpr ⟨member, by simp [notRuns]⟩
  have referred : row.id ∈ referredIds database (bestIds order database batch)
      (batch.experiments.filter fun e => !e.runsOnly) := by
    apply List.mem_append_right
    exact List.mem_filterMap.mpr ⟨experiment.id, List.mem_map_of_mem isObserved, found⟩
  have fetched : row ∈ fetchedObservations order database batch :=
    List.mem_filter.mpr ⟨leads.stored, by simp [referred, leads.eligible.2.1]⟩
  rw [returnedBest_of_observations member notRuns, found, Option.bind_some]
  exact toMapByKey_of_mem fetched

/-- What is returned leads at the last position, and nothing is returned if there is no valid observation. -/
theorem returnedBest_cases (isEligible : experiment ∈ eligibleExperiments batch) (order : RowOrder)
    (database : Database) :
    (∃ row, Leads database experiment (lastIndex batch) row ∧
        returnedBest order database batch experiment = some row) ∨
      ((∀ row, ¬Leads database experiment (lastIndex batch) row) ∧
        returnedBest order database batch experiment = none) := by
  rcases bestIds_cases isEligible order database with ⟨row, leads, found⟩ | ⟨noLeader, notFound⟩
  · exact .inl ⟨row, leads, returnedBest_of_bestId isEligible leads found⟩
  · right
    refine ⟨noLeader, ?_⟩
    rcases mem_eligibleExperiments.mp isEligible with ⟨member, notRuns, _⟩
    rw [returnedBest_of_observations member notRuns, notFound]
    rfl

theorem returnedBest_of_not_eligible (member : experiment ∈ batch.experiments)
    (notEligible : experiment ∉ eligibleExperiments batch) (order : RowOrder) (database : Database) :
    returnedBest order database batch experiment = none := by
  cases runs : experiment.runsOnly with
  | true => exact returnedBest_of_runsOnly member runs order database
  | false =>
      rw [returnedBest_of_observations member runs, bestIds_of_not_eligible member notEligible]
      rfl

/-- Each observation that leads at the last position may be returned. -/
theorem exists_order_of_leads (isEligible : experiment ∈ eligibleExperiments batch) {row : ObservationRow}
    (leads : Leads database experiment (lastIndex batch) row) :
    ∃ order, returnedBest order database batch experiment = some row := by
  have distinct := eligible_distinct (mem_eligibleExperiments.mp isEligible).1
  refine ⟨preferredOrder (experiment.id, row.id), ?_⟩
  apply returnedBest_of_bestId isEligible leads
  rcases bestIds_eq_lastRound isEligible (preferredOrder (experiment.id, row.id)) database with ⟨before, decided⟩
  rw [decided]
  exact writeAll_preferredOrder distinct isEligible leads before

/-- The rows that may be returned are those that lead at the last position. -/
theorem mayReturn_iff (isEligible : experiment ∈ eligibleExperiments batch) {row : ObservationRow} :
    (∃ order, returnedBest order database batch experiment = some row) ↔
      Leads database experiment (lastIndex batch) row := by
  constructor
  · rintro ⟨order, returned⟩
    rcases returnedBest_cases isEligible order database with ⟨leader, leads, isLeader⟩ | ⟨_, nothing⟩
    · rw [isLeader] at returned
      rw [← Option.some.inj returned]
      exact leads
    · rw [nothing] at returned
      cases returned
  · exact exists_order_of_leads isEligible

/-- The order of the table. -/
def tableOrder : RowOrder where
  arrange _ _ rows := rows
  perm _ _ rows := List.Perm.refl rows

/-- Nothing may be returned exactly if the experiment has no valid observation. -/
theorem mayReturnNothing_iff (isEligible : experiment ∈ eligibleExperiments batch) :
    (∃ order, returnedBest order database batch experiment = none) ↔
      ∀ row ∈ database.observations, ¬Eligible experiment.id row := by
  have noLeader : (∀ row, ¬Leads database experiment (lastIndex batch) row) ↔
      ∀ row ∈ database.observations, ¬Eligible experiment.id row := by
    constructor
    · intro none row stored eligible
      rcases exists_leads_iff.mpr ⟨row, stored, eligible⟩ with ⟨leader, leads⟩
      exact none leader leads
    · intro none row leads
      exact none row leads.stored leads.eligible
  rw [← noLeader]
  constructor
  · rintro ⟨order, nothing⟩
    rcases returnedBest_cases isEligible order database with ⟨leader, _, isLeader⟩ | ⟨none, _⟩
    · rw [isLeader] at nothing
      cases nothing
    · exact none
  · intro none
    refine ⟨tableOrder, ?_⟩
    rcases returnedBest_cases isEligible tableOrder database with ⟨leader, leads, _⟩ | ⟨_, nothing⟩
    · exact absurd leads (none leader)
    · exact nothing

end Returned

/-! ### When the best observation is right -/

section Right

variable {database : Database} {batch : Batch} {experiment : Experiment}

/-- At the position where the whole batch is ranked last, the same observations lead as at the position of the
    optimized metric of the experiment, and these have its best value. -/
structure ColumnsAgree (database : Database) (batch : Batch) (experiment : Experiment) : Prop where
  sameLeaders : ∀ row, Leads database experiment (lastIndex batch) row ↔
    Leads database experiment experiment.optimizedIndex row
  leadersBest : ∀ row, Leads database experiment experiment.optimizedIndex row →
    OptimalByName database experiment row

theorem single_eligible (isEligible : experiment ∈ eligibleExperiments batch) :
    experiment ∈ eligibleExperiments (.single experiment) := by
  rcases mem_eligibleExperiments.mp isEligible with ⟨_, asked⟩
  exact mem_eligibleExperiments.mpr ⟨List.mem_singleton_self _, asked⟩

/-- Without other experiments, the last position is that of the optimized metric. -/
theorem lastIndex_single (isEligible : experiment ∈ eligibleExperiments batch) :
    lastIndex (.single experiment) = experiment.optimizedIndex := by
  rcases mem_eligibleExperiments.mp isEligible with ⟨_, notRuns, one⟩
  simp [lastIndex, eligibleExperiments, Batch.single, notRuns, one, LastWrite.firstAppearances]

theorem rightBest_iff (isEligible : experiment ∈ eligibleExperiments batch) :
    RightBest database batch experiment ↔ ColumnsAgree database batch experiment := by
  have inBatch : ∀ row, (∃ order, returnedBest order database batch experiment = some row) ↔
      Leads database experiment (lastIndex batch) row := fun row => mayReturn_iff isEligible
  have alone : ∀ row, (∃ order, returnedBest order database (.single experiment) experiment = some row) ↔
      Leads database experiment experiment.optimizedIndex row := by
    intro row
    rw [mayReturn_iff (single_eligible isEligible), lastIndex_single isEligible]
  constructor
  · intro right
    have sameLeaders : ∀ row, Leads database experiment (lastIndex batch) row ↔
        Leads database experiment experiment.optimizedIndex row := by
      intro row
      rw [← inBatch row, ← alone row]
      exact right.independent (some row)
    refine ⟨sameLeaders, ?_⟩
    intro row leads
    rcases (inBatch row).mpr ((sameLeaders row).mpr leads) with ⟨order, returned⟩
    exact (right.best order row returned).optimal
  · intro agree
    constructor
    · intro order row returned
      have leads := (agree.sameLeaders row).mp ((inBatch row).mp ⟨order, returned⟩)
      exact ⟨leads.stored, leads.eligible, agree.leadersBest row leads⟩
    · intro answer
      cases answer with
      | none => rw [mayReturnNothing_iff isEligible, mayReturnNothing_iff (single_eligible isEligible)]
      | some row =>
          rw [inBatch row, alone row]
          exact agree.sameLeaders row

/-- No best observation is returned for an experiment that has no single optimized metric. -/
theorem rightBest_of_not_eligible (member : experiment ∈ batch.experiments)
    (notEligible : experiment ∉ eligibleExperiments batch) : RightBest database batch experiment := by
  have notAlone : experiment ∉ eligibleExperiments (.single experiment) := by
    intro isEligible
    exact notEligible (mem_eligibleExperiments.mpr ⟨member, (mem_eligibleExperiments.mp isEligible).2⟩)
  have nothing := fun order => returnedBest_of_not_eligible member notEligible order database
  have nothingAlone := fun order =>
    returnedBest_of_not_eligible (List.mem_singleton_self experiment) notAlone order database
  constructor
  · intro order row returned
    rw [nothing order] at returned
    cases returned
  · intro answer
    simp only [nothing, nothingAlone]

/-- The best observations of a batch are right exactly if, for each of its experiments that has a single
    optimized metric, the two columns agree. -/
theorem bestObservation_right_iff (database : Database) (batch : Batch) :
    (∀ experiment ∈ batch.experiments, RightBest database batch experiment) ↔
      ∀ experiment ∈ eligibleExperiments batch, ColumnsAgree database batch experiment := by
  constructor
  · intro right experiment isEligible
    exact (rightBest_iff isEligible).mp (right experiment (mem_eligibleExperiments.mp isEligible).1)
  · intro agree experiment member
    by_cases isEligible : experiment ∈ eligibleExperiments batch
    · exact (rightBest_iff isEligible).mpr (agree experiment isEligible)
    · exact rightBest_of_not_eligible member isEligible

/-! ### Batches of experiments with a single metric -/

theorem optimizedMetrics_of_single (isEligible : experiment ∈ eligibleExperiments batch)
    (single : experiment.hasMultipleMetrics = false) :
    ∃ metric, experiment.allMetrics = [metric] ∧ experiment.optimizedMetrics = [metric] ∧
      experiment.optimizedIndex = 0 := by
  have oneMetric : experiment.allMetrics.length = 1 := by
    have nonempty := List.length_pos_of_ne_nil experiment.allMetrics_ne_nil
    have notSeveral : ¬1 < experiment.allMetrics.length := by
      simpa [MetricsExperiment.hasMultipleMetrics] using single
    omega
  rcases List.length_eq_one_iff.mp oneMetric with ⟨metric, metricsAre⟩
  have one := (mem_eligibleExperiments.mp isEligible).2.2
  have optimized : metric.strategy = .optimize := by
    by_contra notOptimized
    simp [Experiment.optimizedMetrics, metricsAre, notOptimized] at one
  refine ⟨metric, metricsAre, ?_, ?_⟩
  · simp [Experiment.optimizedMetrics, metricsAre, optimized]
  · simp [Experiment.optimizedIndex, metricsAre, optimized]

/-- The only measurement that is read has the number of the only one that is stored. -/
theorem sortedMeasurements_of_single {data : ObservationData} {metrics : MetricsExperiment}
    {measurement : ObservationValue} (measured : data.getAllMeasurements metrics = [measurement]) :
    ∃ only, data.sortedMeasurements = [only] ∧ only.value = measurement.value := by
  unfold ObservationData.getAllMeasurements at measured
  split at measured
  · rename_i only metric rest sorted _ _
    split at measured
    · rw [← (List.cons.inj measured).1]
      exact ⟨only, sorted, rfl⟩
    · rw [← (List.cons.inj measured).1]
      exact ⟨only, sorted, rfl⟩
  · exact ⟨measurement, measured, rfl⟩

/-- The first stored value of a well-formed observation is the value of the only metric. -/
theorem metricValue_of_single {row : ObservationRow} {metric : ExperimentMetric}
    (metricsAre : experiment.allMetrics = [metric]) (succeeded : row.data.reportedFailure = false)
    (wellFormed : WellFormed experiment.toMetricsExperiment row.data) :
    row.data.metricValue experiment.toMetricsExperiment metric.name = some (row.valueAt 0) := by
  rw [WellFormed, if_neg (by simp [succeeded])] at wellFormed
  have oneMeasured := wellFormed.length
  rw [metricsAre] at oneMeasured
  rcases List.length_eq_one_iff.mp oneMeasured with ⟨measurement, measured⟩
  have named : measurement.name = metric.name := by
    have one := wellFormed.one metric (by rw [metricsAre]; exact List.mem_singleton_self _)
    by_contra otherName
    simp [measured, otherName] at one
  have hasNumber := wellFormed.numbers measurement (by rw [measured]; exact List.mem_singleton_self _)
  rcases Option.isSome_iff_exists.mp hasNumber with ⟨number, isNumber⟩
  rcases sortedMeasurements_of_single measured with ⟨only, sorted, sameNumber⟩
  have valuesAre : row.data.values = [only] := by
    by_cases empty : row.data.values = []
    · -- an observation without values is read with a measurement without a number
      have isEmpty : [({} : ObservationValue)] = [only] := by
        rw [← sorted]
        simp [ObservationData.sortedMeasurements, succeeded, empty]
      rw [← (List.cons.inj isEmpty).1, isNumber] at sameNumber
      cases sameNumber
    · have perm := ObservationData.sortedMeasurements_perm succeeded empty
      rw [sorted] at perm
      exact List.perm_singleton.mp perm.symm
  have storedNumber : only.value = some number := sameNumber.trans isNumber
  have readNumber : row.valueAt 0 = number := by simp [ObservationRow.valueAt, valuesAre, storedNumber]
  rw [readNumber, ObservationData.metricValue, measured]
  simp [named, isNumber]

theorem columnsAgree_of_single
    (singles : ∀ e ∈ eligibleExperiments batch, e.hasMultipleMetrics = false)
    (wellFormed : ∀ row ∈ database.observations, Eligible experiment.id row →
      WellFormed experiment.toMetricsExperiment row.data)
    (isEligible : experiment ∈ eligibleExperiments batch) : ColumnsAgree database batch experiment := by
  have allFirst : ∀ e ∈ eligibleExperiments batch, e.optimizedIndex = 0 := by
    intro e member
    rcases optimizedMetrics_of_single member (singles e member) with ⟨_, _, _, first⟩
    exact first
  have lastIsFirst : lastIndex batch = 0 := by
    unfold lastIndex
    cases last : (LastWrite.firstAppearances ((eligibleExperiments batch).map (·.optimizedIndex))).getLast? with
    | none => rfl
    | some index =>
        have appears := LastWrite.mem_firstAppearances.mp (List.mem_of_getLast? last)
        rcases List.mem_map.mp appears with ⟨e, member, rfl⟩
        exact allFirst e member
  constructor
  · intro row
    rw [lastIsFirst, allFirst experiment isEligible]
  · intro row leads metric optimized other otherStored otherEligible
    rw [allFirst experiment isEligible] at leads
    rcases optimizedMetrics_of_single isEligible (singles experiment isEligible) with
      ⟨only, metricsAre, optimizedAre, _⟩
    rw [optimizedAre, List.mem_singleton] at optimized
    subst optimized
    rw [metricValue_of_single metricsAre leads.eligible.2.2.1 (wellFormed row leads.stored leads.eligible),
      metricValue_of_single metricsAre otherEligible.2.2.1 (wellFormed other otherStored otherEligible)]
    have unpreceded := leads.unpreceded other otherStored otherEligible
    intro otherValue isOther
    rw [← Option.mem_some_iff.mp isOther]
    refine ⟨row.valueAt 0, rfl, ?_⟩
    cases direction : metric.objective with
    | maximize =>
        simp only [Experiment.objective, Experiment.isMinimized, optimizedAre] at unpreceded
        simpa [direction, ObservationRow.precedes] using unpreceded
    | minimize =>
        simp only [Experiment.objective, Experiment.isMinimized, optimizedAre] at unpreceded
        simpa [direction, ObservationRow.precedes] using unpreceded

/-- Where every experiment with a single optimized metric has no other metric, and its valid observations are
    well formed, the best observations are right. -/
theorem bestObservation_right_of_single_metrics
    (singles : ∀ experiment ∈ eligibleExperiments batch, experiment.hasMultipleMetrics = false)
    (wellFormed : ∀ experiment ∈ eligibleExperiments batch, ∀ row ∈ database.observations,
      Eligible experiment.id row → WellFormed experiment.toMetricsExperiment row.data) :
    ∀ experiment ∈ batch.experiments, RightBest database batch experiment := by
  intro experiment member
  by_cases isEligible : experiment ∈ eligibleExperiments batch
  · exact (rightBest_iff isEligible).mpr
      (columnsAgree_of_single singles (wellFormed experiment isEligible) isEligible)
  · exact rightBest_of_not_eligible member isEligible

end Right

/-! ### Two experiments -/

def storedAndOptimized : Experiment :=
  { id := 1, metrics := [{ name := "a", strategy := .store }, { name := "b" }] }

def optimizedOnly : Experiment := { id := 2, metrics := [{ name := "c" }] }

def observationOf (id experimentId : Nat) (values : List (String × ℚ)) : ObservationRow where
  id := id
  experimentId := experimentId
  data := { values := values.map fun value => { name := value.1, value := some value.2 } }

def mixedDatabase : Database where
  observations :=
    [observationOf 1 1 [("a", 3), ("b", 0)], observationOf 2 1 [("a", 1), ("b", 5)], observationOf 3 2 [("c", 7)]]
  distinctIds := by decide

def mixedBatch : Batch where
  experiments := [storedAndOptimized, optimizedOnly]
  distinctIds := by decide

/-- In a batch with the second experiment, the first one is ranked by its stored metric `a`. -/
theorem bestObservation_not_right :
    ¬∀ experiment ∈ mixedBatch.experiments, RightBest mixedDatabase mixedBatch experiment := by
  intro right
  have returned : returnedBest tableOrder mixedDatabase mixedBatch storedAndOptimized =
      some (observationOf 1 1 [("a", 3), ("b", 0)]) := by
    decide +kernel
  have isBest := (right storedAndOptimized List.mem_cons_self).best tableOrder _ returned
  have beatsSecond := isBest.optimal { name := "b" } (by decide) (observationOf 2 1 [("a", 1), ("b", 5)])
    (by decide) (by decide) 5 (by decide +kernel)
  rcases beatsSecond with ⟨value, isValue, fiveBelow⟩
  have valueIsZero : some value = some (0 : ℚ) := by
    rw [← Option.mem_def.mp isValue]
    decide +kernel
  rw [Option.some.inj valueIsZero] at fiveBelow
  exact absurd fiveBelow (by decide)

end Zigopt.Progress
