/-
Module: Zigopt.Progress.Query
Layer: Progress
Purpose: The progress of a batch of experiments, as `ExperimentProgressService` reads it from the database:
  the best observation is the row of rank 1 in a query for each position that an optimized metric has in
  some experiment of the batch.
Main exports: Experiment, Database, RowOrder, ExperimentProgress, bestObservations, progressForExperiments
-/
import Mathlib.Algebra.Ring.Rat
import Zigopt.Lib.LastWrite
import Zigopt.Lib.Ranking
import Zigopt.Observations.Data

namespace Zigopt.Progress

open Observations

/-- What the progress queries read of an experiment besides its metrics. -/
structure Experiment extends MetricsExperiment where
  id : Nat
  runsOnly : Bool := false
deriving DecidableEq, Repr

namespace Experiment

def optimizedMetrics (experiment : Experiment) : List ExperimentMetric :=
  experiment.allMetrics.filter fun metric => metric.strategy = .optimize

def isMinimized (experiment : Experiment) : Bool :=
  experiment.optimizedMetrics.head?.any fun metric => metric.objective = .minimize

/-- The position of the optimized metric; the experiments that are asked have one. -/
def optimizedIndex (experiment : Experiment) : Nat :=
  experiment.allMetrics.findIdx fun metric => metric.strategy = .optimize

end Experiment

/-- A row of the observations that the progress queries rank. -/
structure ObservationRow where
  id : Nat
  experimentId : Nat
  data : ObservationData
deriving DecidableEq, Repr

namespace ObservationRow

/-- `Observation.data.task.cost`, which reads as 1 where nothing is stored. -/
def cost (row : ObservationRow) : ℚ := (row.data.task.map (·.cost)).getD 1

/-- `Observation.data.values[index].value.as_primitive()`, which reads as 0 where nothing is stored. -/
def valueAt (index : Nat) (row : ObservationRow) : ℚ := ((row.data.values[index]?).bind (·.value)).getD 0

/-- The row comes before the other one in the order of its value. -/
def precedes (objective : MetricObjective) (index : Nat) (row other : ObservationRow) : Bool :=
  match objective with
  | .maximize => other.valueAt index < row.valueAt index
  | .minimize => row.valueAt index < other.valueAt index

end ObservationRow

structure TrainingRunRow where
  experimentId : Option Nat
  completed : Option Nat := none
  deleted : Bool := false
deriving DecidableEq, Repr

/-- The rows of the two tables; the id is the primary key of the observations. -/
structure Database where
  observations : List ObservationRow
  trainingRuns : List TrainingRunRow := []
  distinctIds : (observations.map (·.id)).Nodup

/-- The two kinds of progress: of an experiment that only has runs, and of one with observations. -/
inductive ExperimentProgress where
  | runs (finishedRunCount activeRunCount : Nat)
  | observations (statusQuo bestObservation lastObservation : Option ObservationRow) (count : Nat)
      (observationBudgetConsumed : ℚ)
deriving DecidableEq, Repr

def ExperimentProgress.bestObservation : ExperimentProgress → Option ObservationRow
  | .runs _ _ => none
  | .observations _ best _ _ _ => best

/-- A query without an `order_by` answers its rows in any order. -/
structure RowOrder where
  arrange : Nat → MetricObjective → List (Nat × Nat) → List (Nat × Nat)
  perm : ∀ index objective rows, (arrange index objective rows).Perm rows

section Queries

variable (database : Database)

/-- The rows that the subquery selects for an experiment. -/
def Eligible (experimentId : Nat) (row : ObservationRow) : Prop :=
  row.experimentId = experimentId ∧ row.data.deleted = false ∧ row.data.reportedFailure = false ∧ row.cost = 1

instance (experimentId : Nat) (row : ObservationRow) : Decidable (Eligible experimentId row) :=
  inferInstanceAs (Decidable (_ ∧ _ ∧ _ ∧ _))

def subquery (experiments : List Experiment) : List ObservationRow :=
  database.observations.filter fun row => Eligible row.experimentId row ∧ ∃ e ∈ experiments, e.id = row.experimentId

/-- The experiment and the observation of each row of rank 1. -/
def rankOne (experiments : List Experiment) (objective : MetricObjective) (index : Nat) : List (Nat × Nat) :=
  let rows := subquery database experiments
  (rows.filter fun row =>
    Ranking.rank ObservationRow.experimentId (ObservationRow.precedes objective index) rows row = 1).map fun row =>
      (row.experimentId, row.id)

variable (order : RowOrder)

/-- One round of the loop over the positions. Each round partitions all the experiments, and not only those
    with their optimized metric at the position. -/
def bestAtIndex (eligible : List Experiment) (best : Nat → Option Nat) (index : Nat) : Nat → Option Nat :=
  let (minExps, maxExps) := eligible.partition (·.isMinimized)
  [(MetricObjective.maximize, maxExps), (.minimize, minExps)].foldl
    (fun best (objective, expList) =>
      if expList = [] then
        best
      else
        LastWrite.writeAll best (order.arrange index objective (rankOne database expList objective index)))
    best

/-- `best_observations`: one query for each position of the optimized metric, its answers written in turn. -/
def bestObservations (experiments : List Experiment) : Nat → Option Nat :=
  let eligible := experiments.filter fun e => e.optimizedMetrics.length = 1
  let byOptimizedIndex := LastWrite.group eligible (·.optimizedIndex)
  (byOptimizedIndex.map Prod.fst).foldl (bestAtIndex database order eligible) fun _ => none

/-! ### The progress map -/

/-- The rows that the aggregates of an experiment are over. -/
def undeletedObservations (experimentId : Nat) : List ObservationRow :=
  database.observations.filter fun row => row.experimentId = experimentId ∧ row.data.deleted = false

def lastObservations (experimentId : Nat) : Option Nat :=
  ((undeletedObservations database experimentId).map (·.id)).max?

def firstObservations (experimentId : Nat) : Option Nat :=
  ((undeletedObservations database experimentId).map (·.id)).min?

def findByIds (ids : List Nat) : List ObservationRow :=
  database.observations.filter fun row => row.id ∈ ids ∧ row.data.deleted = false

def toMapByKey (rows : List ObservationRow) : Nat → Option ObservationRow :=
  LastWrite.writeAll (fun _ => none) (rows.map fun row => (row.id, row))

def emptyProgress (experiment : Experiment) : ExperimentProgress :=
  if experiment.runsOnly then .runs 0 0 else .observations none none none 0 0

/-- An experiment without runs keeps its empty progress, which has the same counts. -/
def runProgress (experiment : Experiment) : ExperimentProgress :=
  let rows := database.trainingRuns.filter fun run => run.experimentId = some experiment.id ∧ run.deleted = false
  .runs (rows.countP (·.completed.isSome)) (rows.countP (·.completed.isNone))

def runProgressForExperiments (experiments : List Experiment) : List (Nat × ExperimentProgress) :=
  experiments.map fun experiment => (experiment.id, runProgress database experiment)

def observationProgress (best : Nat → Option Nat) (observationsMap : Nat → Option ObservationRow)
    (experiment : Experiment) : ExperimentProgress :=
  let rows := undeletedObservations database experiment.id
  .observations
    ((firstObservations database experiment.id).bind observationsMap)
    ((best experiment.id).bind observationsMap)
    ((lastObservations database experiment.id).bind observationsMap)
    rows.length
    (rows.map (·.cost)).sum

/-- The ids of the observations that the progress of the experiments refers to. -/
def referredIds (best : Nat → Option Nat) (experiments : List Experiment) : List Nat :=
  let ids := experiments.map (·.id)
  ids.filterMap (lastObservations database) ++ ids.filterMap (firstObservations database) ++ ids.filterMap best

def observationProgressForExperiments (experiments : List Experiment) (shouldFetchBest : Bool) :
    List (Nat × ExperimentProgress) :=
  let best := if shouldFetchBest then bestObservations database order experiments else fun _ => none
  let observationsMap := toMapByKey (findByIds database (referredIds database best experiments))
  experiments.map fun experiment => (experiment.id, observationProgress database best observationsMap experiment)

/-- `progress_for_experiments`: the runs are written over the empty progress, the observations over both. -/
def progressForExperiments (experiments : List Experiment) (shouldFetchBest : Bool) : Nat → Option ExperimentProgress :=
  let progressMap := LastWrite.writeAll (fun _ => none) (experiments.map fun e => (e.id, emptyProgress e))
  let (runsExperiments, observationsExperiments) := experiments.partition (·.runsOnly)
  let progressMap := LastWrite.writeAll progressMap (runProgressForExperiments database runsExperiments)
  LastWrite.writeAll progressMap
    (observationProgressForExperiments database order observationsExperiments shouldFetchBest)

end Queries

end Zigopt.Progress
