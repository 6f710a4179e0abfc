/-
Module: Zigopt.Suggestion.Samplers
Layer: Suggestion
Purpose: The samplers that the broker chooses among for the next suggestion, and the check of a stored suggestion
  against the experiment as it is by now. An experiment with conditionals is sampled without them first; what its
  conditions leave of a point is the suggestion.
Main exports: isValid, generateRandomSuggestions, fetchLatinHypercube, sampleFromPrior, fetchXgb, rankSuggestions,
  nextSampler, Chances, fetch, bestSuggestion
-/
import Zigopt.Assignments.Unconditioned
import Zigopt.GridSearch.Sampler
import Zigopt.SigoptCompute.Adapter
import Zigopt.Suggestion.LatinHypercube

namespace Zigopt.Suggestion

open Experiment Assignments SigoptCompute GridSearch

inductive SamplerError where
  | conversion (failure : ConversionError)
  | segmenter (failure : SegmenterError)
  | assertion
deriving DecidableEq, Repr

/-! ### Stored suggestions -/

/-- `valid_assignment`, which does not ask for integers. -/
def validAssignment (parameter : ExperimentParameter) (assignment : ℚ) : Bool :=
  if parameter.isCategorical then
    (activeIndices parameter).any fun enumIndex => assignment = (enumIndex : ℚ)
  else if parameter.isGrid then
    assignment ∈ parameter.gridValues
  else
    decide (parameter.bounds.minimum ≤ assignment ∧ assignment ≤ parameter.bounds.maximum)

/-- `is_valid` of a suggestion; any value of a conditional is valid. -/
def isValid (experiment : ExperimentMeta) (row : AssignmentsMap) : Bool :=
  ((allParameters experiment).map (·.name) ++ experiment.conditionalNames).all fun name =>
    match getAssignments experiment row name with
    | none => true
    | some assignment =>
        match parameterNamed experiment name with
        | some parameter => validAssignment parameter assignment
        | none => (conditionalNamed experiment name).isSome

/-! ### Without conditionals -/

/-- The experiment whose points are sampled. -/
def experimentToSample (experiment : ExperimentMeta) : Except SamplerError ExperimentMeta :=
  if experiment.conditionals = [] then
    .ok experiment
  else
    (convertToUnconditionedExperiment experiment).mapError .conversion

/-- The suggestion that is made of a point. -/
def suggestionOfPoint (experiment : ExperimentMeta) (point : AssignmentsMap) : AssignmentsMap :=
  if experiment.conditionals = [] then point else getAssignments experiment point

/-- `generate_random_suggestions`, for the points that random search answers. -/
def generateRandomSuggestions (logarithm : Logarithm ℚ) (experiment : ExperimentMeta) (points : List (List ℚ))
    (count : ℕ) : Except SamplerError (List AssignmentsMap) := do
  let sampled ← experimentToSample experiment
  if points.length = count then
    return points.map fun point =>
      suggestionOfPoint experiment (assignCoordinates logarithm (allParameters sampled) point)
  else
    .error .assertion

/-- `fetch_best_suggestions` of the Latin hypercube sampler. -/
def fetchLatinHypercube (logarithm : Logarithm ℚ) (experiment : ExperimentMeta) (parallelBandwidth : ℤ)
    (rows : List (List (String × ℚ))) (draws : ℕ → ℕ → Pick ℚ) (limit : ℕ) :
    Except SamplerError (List AssignmentsMap) := do
  let sampled ← experimentToSample experiment
  let points ← (latinHypercube logarithm sampled (stencilLength sampled parallelBandwidth) rows limit draws).mapError
    .segmenter
  return points.map (suggestionOfPoint experiment)

/-! ### Priors -/

/-- The names of `priors`. -/
def priorNames : List String := ["eta", "gamma", "max_depth", "min_child_weight", "max_delta_step"]

/-- Only the prior of `eta` is on a logarithmic scale. -/
def volumeInRange (cdf : String → ℚ → ℚ) (parameter : ExperimentParameter) : ℚ :=
  if parameter.name = "eta" ∧ parameter.bounds.minimum ≤ 0 then
    0
  else
    cdf parameter.name parameter.bounds.maximum - cdf parameter.name parameter.bounds.minimum

def probabilityMassThreshold : ℚ := 1 / 4

/-- `check_active_priors`. -/
def activePriors (cdf : String → ℚ → ℚ) (experiment : ExperimentMeta) : List String :=
  ((allParameters experiment).filter fun parameter =>
    parameter.name ∈ priorNames ∧ probabilityMassThreshold < volumeInRange cdf parameter).map (·.name)

/-- What is drawn for one parameter: a block of samples of its prior, which may be any numbers here, and a number for
    every other choice. -/
structure PriorDraw where
  samples : List ℚ
  other : Draw ℚ

/-- `int` of a number. -/
def truncate (number : ℚ) : ℤ := if number < 0 then ⌈number⌉ else ⌊number⌋

/-- The first sample between the bounds, or else a uniform number. -/
def rejectionSample (parameter : ExperimentParameter) (draw : PriorDraw) : ℚ :=
  match draw.samples.find? fun sample => parameter.bounds.minimum ≤ sample ∧ sample ≤ parameter.bounds.maximum with
  | some accepted => accepted
  | none => draw.other.uniform parameter.bounds.minimum parameter.bounds.maximum

/-- `sample_from_prior`: an integer parameter takes the truncated sample. -/
def sampleFromPrior (parameter : ExperimentParameter) (draw : PriorDraw) : ℚ :=
  if parameter.isInteger then (truncate (rejectionSample parameter draw) : ℚ) else rejectionSample parameter draw

/-- The value that one parameter is given. -/
def xgbValue (logarithm : Logarithm ℚ) (priors : List String) (parameter : ExperimentParameter) (draw : PriorDraw) :
    Except SegmenterError ℚ :=
  if parameter.name ∈ priors then .ok (sampleFromPrior parameter draw)
  else randomValueForParameter logarithm parameter draw.other

/-- `_generate_random_suggestion_datas`. -/
def fetchXgb (logarithm : Logarithm ℚ) (cdf : String → ℚ → ℚ) (experiment : ExperimentMeta)
    (draws : ℕ → String → PriorDraw) (count : ℕ) : Except SamplerError (List AssignmentsMap) :=
  (List.range count).mapM fun round => do
    let items ← ((allParameters experiment).mapM fun parameter => do
      let value ← xgbValue logarithm (activePriors cdf experiment) parameter (draws round parameter.name)
      return (parameter.name, value)).mapError SamplerError.segmenter
    return assignmentsFromDict items

/-! ### Grids -/

/-- `get_suggestion` for so many indices; all parameters must have grid values. -/
def fetchGrid (experiment : ExperimentMeta) (startIndex limit : ℕ) : Except SamplerError (List AssignmentsMap) :=
  (List.range' startIndex limit).mapM fun index =>
    if (allParameters experiment).all fun parameter => parameter.isGrid then
      .ok (assignGridValues (allParameters experiment) index .empty)
    else
      .error .assertion

/-! ### The queue -/

/-- `get_ranked_suggestions_excluding_low_score`, for suggestions with their scores. -/
def rankExcludingLowScore (cutoff : ℚ) (scored : List (AssignmentsMap × ℚ)) : List AssignmentsMap :=
  ((scored.mergeSort fun first second => second.2 ≤ first.2).takeWhile fun entry => cutoff < entry.2).map Prod.fst

/-- The stored suggestions that are valid, and random ones that pad them, in the order of their scores. -/
def rankSuggestions (experiment : ExperimentMeta) (score : List AssignmentsMap → List AssignmentsMap →
    List (AssignmentsMap × ℚ)) (cutoff : ℚ) (stored padding : List AssignmentsMap) : List AssignmentsMap :=
  let suggestions := stored.filter (isValid experiment)
  if suggestions ++ padding = [] then [] else rankExcludingLowScore cutoff (score suggestions padding)

/-! ### The broker -/

inductive SuggestionSampler where
  | random
  | grid
  | categoricalOnly
  | xgb
  | latinHypercube
  | queue
deriving DecidableEq, Repr

/-- One sampler, or several of them in turn with how many suggestions each gives at most. -/
inductive NextSampler where
  | single (sampler : SuggestionSampler)
  | sequential (samplersWithCounts : List (SuggestionSampler × ℕ))
deriving DecidableEq, Repr

/-- What the broker looks at, apart from the parameters of the experiment. -/
structure BrokerView where
  development : Bool := false
  isXgb : Bool := false
  shouldUseSpe : Bool := false
  parallelBandwidth : ℤ := 1
  observationCount : ℕ := 0
  numOpenSuggestions : ℕ := 0
  onlyPositiveLds : Bool := false

def hasNonCategoricalParameters (experiment : ExperimentMeta) : Bool :=
  (allParameters experiment).any fun parameter => !parameter.isCategorical

def shouldUseRandomForLowDiscrepancy (experiment : ExperimentMeta) (view : BrokerView) : Bool :=
  view.shouldUseSpe || (allParameters experiment).any (fun parameter => parameter.prior.isSome) ||
    !experiment.constraints.isEmpty

def lowDiscrepancySampler (experiment : ExperimentMeta) (view : BrokerView) : SuggestionSampler :=
  if view.isXgb && experiment.conditionals.isEmpty && experiment.constraints.isEmpty then .xgb
  else if shouldUseRandomForLowDiscrepancy experiment view then .random
  else .latinHypercube

/-- How many suggestions of low discrepancy are still to be made. -/
def ldsCount (view : BrokerView) (stencil : ℕ) : ℤ :=
  let remaining := (stencil : ℤ) - view.observationCount
  if 1 < view.parallelBandwidth ∧ view.numOpenSuggestions < view.parallelBandwidth then
    remaining - view.numOpenSuggestions
  else
    remaining

/-- The choice of `SuggestionBroker` among the samplers, in the source's order of the tests. -/
def nextSampler (experiment : ExperimentMeta) (view : BrokerView) : Except SamplerError (Option NextSampler) :=
  if view.development || experiment.experimentType = .random then
    .ok (some (.single .random))
  else if experiment.experimentType = .grid then
    .ok (some (.single .grid))
  else if !hasNonCategoricalParameters experiment then
    .ok (some (.single .categoricalOnly))
  else do
    let sampled ← experimentToSample experiment
    let count := ldsCount view (stencilLength sampled view.parallelBandwidth)
    if 0 < count then
      return some (.sequential [(lowDiscrepancySampler experiment view, count.toNat), (.queue, 1)])
    else if view.onlyPositiveLds then
      return none
    else
      return some (.sequential [(.queue, 1)])

/-- The loop of the sequential sampler. -/
def fetchSequentially (fetch : SuggestionSampler → ℕ → Except SamplerError (List AssignmentsMap)) (limit : ℕ) :
    List (SuggestionSampler × ℕ) → List AssignmentsMap → Except SamplerError (List AssignmentsMap)
  | [], fetched => .ok (fetched.take limit)
  | (sampler, count) :: rest, fetched => do
      let suggestions ← fetch sampler (min (limit - fetched.length) count)
      if limit ≤ (fetched ++ suggestions).length then
        return (fetched ++ suggestions).take limit
      else
        fetchSequentially fetch limit rest (fetched ++ suggestions)

def fetchBestOf (fetch : SuggestionSampler → ℕ → Except SamplerError (List AssignmentsMap)) :
    NextSampler → ℕ → Except SamplerError (List AssignmentsMap)
  | .single sampler, limit => fetch sampler limit
  | .sequential samplersWithCounts, limit => fetchSequentially fetch limit samplersWithCounts []

/-- What the samplers draw, read and are answered. -/
structure Chances (experiment : ExperimentMeta) where
  logarithm : Logarithm ℚ
  searchPoints : ℕ → List (List ℚ)
  openSuggestions : List AssignmentsMap
  observations : List AssignmentsMap
  prunedItems : List (List (String × ℚ))
  picks : ℕ → ℕ → Pick ℚ
  cdf : String → ℚ → ℚ
  priorDraws : ℕ → String → PriorDraw
  sampling : ∀ limit, Sampling experiment (openSuggestions ++ observations) limit
  order : SetOrder
  stored : List AssignmentsMap
  paddingCount : ℕ
  paddingPoints : List (List ℚ)
  score : List AssignmentsMap → List AssignmentsMap → List (AssignmentsMap × ℚ)
  cutoff : ℚ

/-- `fetch_best_suggestions` of each sampler. -/
def fetch {experiment : ExperimentMeta} (view : BrokerView) (chances : Chances experiment) :
    SuggestionSampler → ℕ → Except SamplerError (List AssignmentsMap)
  | .random, limit => generateRandomSuggestions chances.logarithm experiment (chances.searchPoints limit) limit
  | .grid, limit => fetchGrid experiment (view.observationCount + view.numOpenSuggestions) limit
  | .categoricalOnly, limit => .ok (fetchBestSuggestions (chances.sampling limit) chances.order)
  | .xgb, limit => fetchXgb chances.logarithm chances.cdf experiment chances.priorDraws limit
  | .latinHypercube, limit =>
      fetchLatinHypercube chances.logarithm experiment view.parallelBandwidth chances.prunedItems chances.picks limit
  | .queue, limit =>
      if limit = 0 then
        .ok []
      else do
        let padding ← generateRandomSuggestions chances.logarithm experiment chances.paddingPoints chances.paddingCount
        return (rankSuggestions experiment chances.score chances.cutoff chances.stored padding).take limit

/-- `suggestion_to_serve_next`, after so many suggestions that were ignored. -/
def bestSuggestion {experiment : ExperimentMeta} (view : BrokerView) (chances : Chances experiment) (skip : ℕ) :
    Except SamplerError (Option AssignmentsMap) := do
  match ← nextSampler experiment view with
  | none => return none
  | some sampler =>
      let suggestions ← fetchBestOf (fetch view chances) sampler (1 + skip)
      return (suggestions.drop skip).head?

end Zigopt.Suggestion
