/-
Module: Zigopt.Suggestion.LatinHypercube
Layer: Suggestion
Purpose: Latin hypercube sampling: each parameter has a set of segments of its domain, a suggestion takes for every
  parameter a value from a segment that is left, and takes the segment away. A batch of as many suggestions as there are
  segments has one value in each segment of every parameter.
Main exports: stencilLength, Intervals, buildIntervals, pruneIntervals, fetchSuggestions, latinHypercube,
  HitsEachOnce, segments_and_samples_iff
-/
import Mathlib.Analysis.SpecialFunctions.Log.Base
import Mathlib.Analysis.SpecialFunctions.Pow.Real
import Zigopt.Assignments.Validate
import Zigopt.Experiment.SegmentsRight
import Zigopt.Lib.Raising

namespace Zigopt.Suggestion

open Raising Experiment Assignments

/-- `get_low_discrepancy_stencil_length_from_experiment`. -/
def stencilLength (experiment : ExperimentMeta) (parallelBandwidth : ℤ) : ℕ :=
  let categoricalParameters := (allParameters experiment).filter fun parameter => parameter.isCategorical
  let numericParameters := (allParameters experiment).filter fun parameter => !parameter.isCategorical
  let numCategories : ℕ := (categoricalParameters.map fun parameter => parameter.activeCategoricalValues.length).sum
  let stencil : ℤ := max (numCategories : ℤ) 1 * numericParameters.length + (parallelBandwidth - 1)
  (max (min stencil (100 + parallelBandwidth - 1)) 4).toNat

section

variable {K : Type} [Field K] [LinearOrder K] [FloorRing K]

/-- `intervals_by_parameter`: the segments that are left for the parameter of a name. -/
abbrev Intervals (K : Type) := String → List (Segment K)

/-- The assignments of a suggestion or an observation. -/
abbrev AssignmentsOf (K : Type) := String → Option K

/-! ### Intervals -/

/-- The intervals with values. -/
def intervalsWithValues (parameter : ExperimentParameter) : List (Segment K) → Except SegmenterError (List (Segment K))
  | [] => .ok []
  | interval :: rest => do
      let found ← hasValues parameter interval
      let others ← intervalsWithValues parameter rest
      return if found then interval :: others else others

/-- The sets of intervals of the parameters; of two parameters with one name the dict has that of the later one. -/
def intervalsByParameter (logarithm : Logarithm K) (stencil : ℕ) :
    List ExperimentParameter → Intervals K → Except SegmenterError (Intervals K)
  | [], intervals => .ok intervals
  | parameter :: rest, intervals => do
      let found ← intervalsWithValues parameter (segmentedIntervals logarithm parameter stencil)
      intervalsByParameter logarithm stencil rest (Function.update intervals parameter.name found.dedup)

/-- `parameter_conditions_satisfied`. -/
def conditionsSatisfied (parameter : ExperimentParameter) (assignments : AssignmentsOf K) : Bool :=
  parameter.conditions.all fun condition =>
    match assignments condition.name with
    | some assignment => assignment ∈ condition.values.map (Rat.cast : ℚ → K)
    | none => true

/-- The items of `get_assignments` for a suggestion that assigns every parameter. -/
def assignmentItems (experiment : ExperimentMeta) (assignments : AssignmentsOf K) : List (String × K) :=
  (((allParameters experiment).filter fun parameter => conditionsSatisfied parameter assignments).map
    (·.name)).dedup.filterMap fun name => (assignments name).map (name, ·)

/-- One assignment takes away the first interval it is in. -/
def pruneInterval (intervals : Intervals K) (item : String × K) : Intervals K :=
  match (intervals item.1).find? fun interval => item.2 ∈ interval with
  | some toRemove =>
      if toRemove.isTrue then
        Function.update intervals item.1 ((intervals item.1).erase toRemove)
      else
        intervals
  | none => intervals

/-- `prune_intervals`. -/
def pruneIntervals (withAssignments : List (List (String × K))) (intervals : Intervals K) : Intervals K :=
  withAssignments.foldl (fun left items => items.foldl pruneInterval left) intervals

/-- `build_intervals`, for the assignments of the observations and the open suggestions. -/
def buildIntervals (logarithm : Logarithm K) (experiment : ExperimentMeta) (stencil : ℕ)
    (rows : List (List (String × K))) : Except SegmenterError (Intervals K) := do
  let intervals ← intervalsByParameter logarithm stencil (allParameters experiment) fun _ => []
  return pruneIntervals rows intervals

/-! ### Suggestions -/

/-- The draws for one value: one for its interval and one in it. -/
abbrev Pick (K : Type) [Field K] [LinearOrder K] := Draw K × Draw K

/-- A value for each of the parameters. -/
def pickAssignments (logarithm : Logarithm K) (intervals : Intervals K) :
    List ExperimentParameter → (ℕ → Pick K) → Except SegmenterError (List (String × K))
  | [], _ => .ok []
  | parameter :: rest, picks => do
      let assignment ← pickValue logarithm parameter (intervals parameter.name) (picks 0).1 (picks 0).2
      let others ← pickAssignments logarithm intervals rest fun position => picks (position + 1)
      return (parameter.name, assignment) :: others

def setAssignment (assignments : AssignmentsOf K) (item : String × K) : AssignmentsOf K :=
  Function.update assignments item.1 (some item.2)

/-- `set_assignments_map_from_dict`. -/
def assignmentsFromDict (items : List (String × K)) : AssignmentsOf K :=
  items.foldl setAssignment fun _ => none

/-- The loop of `_fetch_best_suggestions`. -/
def fetchSuggestions (logarithm : Logarithm K) (experiment : ExperimentMeta) :
    ℕ → Intervals K → (ℕ → ℕ → Pick K) → Except SegmenterError (List (AssignmentsOf K))
  | 0, _, _ => .ok []
  | limit + 1, intervals, draws => do
      let items ← pickAssignments logarithm intervals (allParameters experiment) (draws 0)
      let assignments := assignmentsFromDict items
      let left := pruneIntervals [assignmentItems experiment assignments] intervals
      let others ← fetchSuggestions logarithm experiment limit left fun position => draws (position + 1)
      return assignments :: others

/-- `_fetch_best_suggestions`. -/
def latinHypercube (logarithm : Logarithm K) (experiment : ExperimentMeta) (stencil : ℕ)
    (rows : List (List (String × K))) (limit : ℕ) (draws : ℕ → ℕ → Pick K) :
    Except SegmenterError (List (AssignmentsOf K)) := do
  let intervals ← buildIntervals logarithm experiment stencil rows
  fetchSuggestions logarithm experiment limit intervals draws

/-! ### What a batch is to be -/

/-- Every segment of every parameter has the value of one suggestion. -/
def HitsEachOnce (logarithm : Logarithm K) (experiment : ExperimentMeta) (stencil : ℕ)
    (suggestions : List (AssignmentsOf K)) : Prop :=
  ∀ parameter ∈ allParameters experiment, ∀ segment ∈ segmentedIntervals logarithm parameter stencil,
    suggestions.countP (fun assignments => (assignments parameter.name).any fun value => value ∈ segment) = 1

/-- An experiment without conditionals whose parameters have distinct names and domains as the handlers require. -/
structure Sampleable (experiment : ExperimentMeta) : Prop where
  conditionals : experiment.conditionals = []
  unconditioned : ∀ parameter ∈ allParameters experiment, parameter.conditions = []
  names : ((allParameters experiment).map (·.name)).Nodup
  domains : ∀ parameter ∈ allParameters experiment, ValidDomain parameter

/-! ### Pruning -/

omit [Field K] [FloorRing K] in
/-- A segment with a value in it is true. -/
theorem isTrue_of_mem {segment : Segment K} {value : K} (isIn : value ∈ segment) : segment.isTrue = true := by
  cases segment with
  | rightOpen min max => exact decide_eq_true (isIn.1.trans_lt isIn.2)
  | closed min max => exact decide_eq_true (isIn.1.trans isIn.2)
  | values members => exact decide_eq_true (List.ne_nil_of_mem isIn)

omit [Field K] [FloorRing K] in
theorem pruneInterval_eq (intervals : Intervals K) (item : String × K) :
    pruneInterval intervals item =
      Function.update intervals item.1 (Segments.prune (intervals item.1) item.2) := by
  rw [pruneInterval, Segments.prune]
  cases found : (intervals item.1).find? fun interval => item.2 ∈ interval with
  | none => exact (Function.update_eq_self item.1 intervals).symm
  | some toRemove =>
      have isIn : item.2 ∈ toRemove := by
        have holds := List.find?_some found
        exact of_decide_eq_true holds
      exact if_pos (isTrue_of_mem isIn)

omit [Field K] [FloorRing K] in
/-- Items of other names leave the intervals of a name as they are. -/
theorem foldl_pruneInterval_of_notMem {items : List (String × K)} {name : String}
    (isOther : name ∉ items.map Prod.fst) (intervals : Intervals K) :
    items.foldl pruneInterval intervals name = intervals name := by
  induction items generalizing intervals with
  | nil => rfl
  | cons item rest inductionHypothesis =>
      rw [List.map_cons, List.mem_cons, not_or] at isOther
      rw [List.foldl_cons, inductionHypothesis isOther.2, pruneInterval_eq, Function.update_of_ne isOther.1]

omit [Field K] [FloorRing K] in
/-- The item of a name prunes the intervals of that name. -/
theorem foldl_pruneInterval {items : List (String × K)} (distinct : (items.map Prod.fst).Nodup) {name : String}
    {value : K} (isItem : (name, value) ∈ items) (intervals : Intervals K) :
    items.foldl pruneInterval intervals name = Segments.prune (intervals name) value := by
  induction items generalizing intervals with
  | nil => cases isItem
  | cons item rest inductionHypothesis =>
      rw [List.map_cons, List.nodup_cons] at distinct
      rw [List.foldl_cons]
      cases List.mem_cons.mp isItem with
      | inl isFirst =>
          rw [← isFirst] at distinct ⊢
          rw [foldl_pruneInterval_of_notMem distinct.1, pruneInterval_eq, Function.update_self]
      | inr isLater =>
          have isOther : name ≠ item.1 := by
            intro same
            rw [← same] at distinct
            exact distinct.1 (List.mem_map_of_mem isLater)
          rw [inductionHypothesis distinct.2 isLater, pruneInterval_eq, Function.update_of_ne isOther]

omit [Field K] [FloorRing K] in
/-- Pruning takes away one interval at most. -/
theorem length_prune (segments : List (Segment K)) (value : K) :
    segments.length - 1 ≤ (Segments.prune segments value).length := by
  rw [Segments.prune]
  cases segments.find? fun segment => value ∈ segment with
  | none => exact Nat.sub_le _ _
  | some segment => exact List.le_length_erase

/-! ### One suggestion -/

omit [Field K] [LinearOrder K] [FloorRing K] in
theorem foldl_setAssignment_of_notMem {items : List (String × K)} {name : String}
    (isOther : name ∉ items.map Prod.fst) (start : AssignmentsOf K) :
    items.foldl setAssignment start name = start name := by
  induction items generalizing start with
  | nil => rfl
  | cons item rest inductionHypothesis =>
      rw [List.map_cons, List.mem_cons, not_or] at isOther
      rw [List.foldl_cons, inductionHypothesis isOther.2, setAssignment, Function.update_of_ne isOther.1]

omit [Field K] [LinearOrder K] [FloorRing K] in
theorem foldl_setAssignment {items : List (String × K)} (distinct : (items.map Prod.fst).Nodup) {name : String}
    {value : K} (isItem : (name, value) ∈ items) (start : AssignmentsOf K) :
    items.foldl setAssignment start name = some value := by
  induction items generalizing start with
  | nil => cases isItem
  | cons item rest inductionHypothesis =>
      rw [List.map_cons, List.nodup_cons] at distinct
      rw [List.foldl_cons]
      cases List.mem_cons.mp isItem with
      | inl isFirst =>
          rw [← isFirst] at distinct ⊢
          rw [foldl_setAssignment_of_notMem distinct.1, setAssignment, Function.update_self]
      | inr isLater => exact inductionHypothesis distinct.2 isLater _

omit [FloorRing K] in
/-- The names of the items are distinct, and an assigned parameter is among them. -/
theorem assignmentItems_facts {experiment : ExperimentMeta} (sampleable : Sampleable experiment)
    (assignments : AssignmentsOf K) :
    ((assignmentItems experiment assignments).map Prod.fst).Nodup ∧
      ∀ parameter ∈ allParameters experiment, ∀ value, assignments parameter.name = some value →
        (parameter.name, value) ∈ assignmentItems experiment assignments := by
  constructor
  · rw [assignmentItems, List.map_filterMap]
    have namesOnly : ∀ name : String, ((assignments name).map fun value => (name, value)).map Prod.fst =
        Option.guard (fun other => (assignments other).isSome) name := by
      intro name
      cases isValue : assignments name <;> simp [Option.guard, isValue]
    simp only [namesOnly]
    rw [List.filterMap_eq_filter]
    exact (List.nodup_dedup _).filter _
  · intro parameter isParameter value isAssigned
    refine List.mem_filterMap.mpr ⟨parameter.name, ?_, by rw [isAssigned]; rfl⟩
    have satisfied : conditionsSatisfied parameter assignments = true := by
      rw [conditionsSatisfied, sampleable.unconditioned parameter isParameter, List.all_nil]
    exact List.mem_dedup.mpr (List.mem_map_of_mem (List.mem_filter.mpr ⟨isParameter, satisfied⟩))

section

variable [IsStrictOrderedRing K] {logarithm : Logarithm K} {experiment : ExperimentMeta} {stencil : ℕ}

/-- With intervals left for it, a parameter is given a value in one of them. -/
theorem pickValue_mem {parameter : ExperimentParameter} (valid : ValidDomain parameter) (positive : 0 < stencil)
    (spaced : WellSpaced parameter stencil) {intervals : List (Segment K)} (areLeft : intervals ≠ [])
    (areSegments : ∀ interval ∈ intervals, interval ∈ segmentedIntervals logarithm parameter stencil)
    (first second : Draw K) :
    ∃ value, pickValue logarithm parameter intervals first second = .ok value ∧
      ∃ interval ∈ intervals, value ∈ interval := by
  obtain ⟨interval, isLeft, isChosen⟩ := choice_mem first areLeft
  have isSegment := areSegments interval isLeft
  have hasValue := (wellSpaced_iff logarithm valid positive).mpr spaced interval isSegment
  obtain ⟨value, isSampled, _, isIn⟩ :=
    (segmentsApart logarithm valid stencil positive).samples interval isSegment hasValue second
  refine ⟨value, ?_, interval, isLeft, isIn⟩
  rw [pickValue, if_neg areLeft, isChosen]
  exact isSampled

omit [IsStrictOrderedRing K] in
/-- Each of the parameters is given a value in one of its intervals. -/
theorem pickAssignments_mem (intervals : Intervals K) (parameters : List ExperimentParameter)
    (picked : ∀ parameter ∈ parameters, ∀ first second, ∃ value,
      pickValue logarithm parameter (intervals parameter.name) first second = .ok value ∧
        ∃ interval ∈ intervals parameter.name, value ∈ interval)
    (picks : ℕ → Pick K) :
    ∃ items, pickAssignments logarithm intervals parameters picks = .ok items ∧
      items.map Prod.fst = parameters.map (·.name) ∧
      ∀ parameter ∈ parameters, ∃ value, (parameter.name, value) ∈ items ∧
        ∃ interval ∈ intervals parameter.name, value ∈ interval := by
  induction parameters generalizing picks with
  | nil => exact ⟨[], rfl, rfl, fun parameter member => nomatch member⟩
  | cons parameter rest inductionHypothesis =>
      obtain ⟨value, isPicked, isIn⟩ := picked parameter List.mem_cons_self (picks 0).1 (picks 0).2
      obtain ⟨items, areItems, names, values⟩ :=
        inductionHypothesis (fun other member => picked other (List.mem_cons_of_mem _ member))
          fun position => picks (position + 1)
      refine ⟨(parameter.name, value) :: items, ?_, ?_, ?_⟩
      · rw [pickAssignments, isPicked]
        change (do let others ← pickAssignments logarithm intervals rest fun position => picks (position + 1)
                   return (parameter.name, value) :: others : Except SegmenterError _) = _
        rw [areItems]
        rfl
      · rw [List.map_cons, List.map_cons, names]
      · intro other member
        cases List.mem_cons.mp member with
        | inl isFirst =>
            rw [isFirst]
            exact ⟨value, List.mem_cons_self, isIn⟩
        | inr isLater =>
            obtain ⟨itsValue, isItem, itsInterval⟩ := values other isLater
            exact ⟨itsValue, List.mem_cons_of_mem _ isItem, itsInterval⟩

/-! ### A batch -/

/-- As long as there are intervals left, a batch takes for every parameter values from different intervals. -/
theorem fetchSuggestions_stratified (logarithm : Logarithm K) (sampleable : Sampleable experiment)
    (positive : 0 < stencil) (spaced : ∀ parameter ∈ allParameters experiment, WellSpaced parameter stencil)
    (limit : ℕ) (intervals : Intervals K)
    (areSegments : ∀ parameter ∈ allParameters experiment, ∀ interval ∈ intervals parameter.name,
      interval ∈ segmentedIntervals logarithm parameter stencil)
    (areEnough : ∀ parameter ∈ allParameters experiment, limit ≤ (intervals parameter.name).length)
    (draws : ℕ → ℕ → Pick K) :
    ∃ suggestions, fetchSuggestions logarithm experiment limit intervals draws = .ok suggestions ∧
      suggestions.length = limit ∧
      ∀ parameter ∈ allParameters experiment, ∃ values : List K,
        suggestions.map (fun assignments => assignments parameter.name) = values.map some ∧
          Segments.Stratified (intervals parameter.name) values := by
  induction limit generalizing intervals draws with
  | zero => exact ⟨[], rfl, rfl, fun parameter _ => ⟨[], rfl, trivial⟩⟩
  | succ limit inductionHypothesis =>
      have picked : ∀ parameter ∈ allParameters experiment, ∀ first second, ∃ value,
          pickValue logarithm parameter (intervals parameter.name) first second = .ok value ∧
            ∃ interval ∈ intervals parameter.name, value ∈ interval := by
        intro parameter isParameter first second
        have areLeft : intervals parameter.name ≠ [] := by
          apply List.ne_nil_of_length_pos
          exact Nat.lt_of_lt_of_le (Nat.succ_pos limit) (areEnough parameter isParameter)
        exact pickValue_mem (sampleable.domains parameter isParameter) positive (spaced parameter isParameter) areLeft
          (areSegments parameter isParameter) first second
      obtain ⟨items, areItems, names, values⟩ := pickAssignments_mem intervals _ picked (draws 0)
      have distinct : (items.map Prod.fst).Nodup := by
        rw [names]
        exact sampleable.names
      obtain ⟨itemsDistinct, isAmong⟩ := assignmentItems_facts sampleable (assignmentsFromDict items)
      have isPruned : ∀ parameter ∈ allParameters experiment, ∀ value, (parameter.name, value) ∈ items →
          pruneIntervals [assignmentItems experiment (assignmentsFromDict items)] intervals parameter.name =
            Segments.prune (intervals parameter.name) value := by
        intro parameter isParameter value isItem
        have isAssigned := foldl_setAssignment distinct isItem fun _ => none
        exact foldl_pruneInterval itemsDistinct (isAmong parameter isParameter value isAssigned) intervals
      have leftSegments : ∀ parameter ∈ allParameters experiment, ∀ interval ∈
          pruneIntervals [assignmentItems experiment (assignmentsFromDict items)] intervals parameter.name,
          interval ∈ segmentedIntervals logarithm parameter stencil := by
        intro parameter isParameter interval isLeft
        obtain ⟨value, isItem, _⟩ := values parameter isParameter
        rw [isPruned parameter isParameter value isItem] at isLeft
        exact areSegments parameter isParameter interval (Segments.mem_of_mem_prune isLeft)
      have leftEnough : ∀ parameter ∈ allParameters experiment, limit ≤
          (pruneIntervals [assignmentItems experiment (assignmentsFromDict items)] intervals parameter.name).length := by
        intro parameter isParameter
        obtain ⟨value, isItem, _⟩ := values parameter isParameter
        rw [isPruned parameter isParameter value isItem]
        have before := areEnough parameter isParameter
        have after := length_prune (intervals parameter.name) value
        omega
      obtain ⟨others, areOthers, count, stratified⟩ :=
        inductionHypothesis _ leftSegments leftEnough fun position => draws (position + 1)
      refine ⟨assignmentsFromDict items :: others, ?_, ?_, ?_⟩
      · rw [fetchSuggestions, areItems]
        change (do let more ← fetchSuggestions logarithm experiment limit
                     (pruneIntervals [assignmentItems experiment (assignmentsFromDict items)] intervals)
                     fun position => draws (position + 1)
                   return assignmentsFromDict items :: more : Except SegmenterError _) = _
        rw [areOthers]
        rfl
      · rw [List.length_cons, count]
      · intro parameter isParameter
        obtain ⟨value, isItem, isIn⟩ := values parameter isParameter
        obtain ⟨later, areLater, laterStratified⟩ := stratified parameter isParameter
        refine ⟨value :: later, ?_, isIn, ?_⟩
        · have isAssigned : assignmentsFromDict items parameter.name = some value :=
            foldl_setAssignment distinct isItem fun _ => none
          rw [List.map_cons, List.map_cons, areLater, isAssigned]
        · rw [← isPruned parameter isParameter value isItem]
          exact laterStratified

/-! ### The intervals at first -/

omit [IsStrictOrderedRing K] in
theorem intervalsWithValues_of_all {parameter : ExperimentParameter} {segments : List (Segment K)}
    (haveValues : ∀ segment ∈ segments, hasValues parameter segment = .ok true) :
    intervalsWithValues parameter segments = .ok segments := by
  induction segments with
  | nil => rfl
  | cons segment rest inductionHypothesis =>
      rw [intervalsWithValues, haveValues segment List.mem_cons_self]
      have others := inductionHypothesis fun other member => haveValues other (List.mem_cons_of_mem _ member)
      change (do let found ← intervalsWithValues parameter rest
                 return segment :: found : Except SegmenterError _) = _
      rw [others]
      rfl

/-- All segments of a domain are kept, each once, if each has a value. -/
theorem kept_segments (logarithm : Logarithm K) {parameter : ExperimentParameter} (valid : ValidDomain parameter)
    (positive : 0 < stencil) (spaced : WellSpaced parameter stencil) :
    intervalsWithValues parameter (segmentedIntervals logarithm parameter stencil) =
        .ok (segmentedIntervals logarithm parameter stencil) ∧
      (segmentedIntervals logarithm parameter stencil).Nodup := by
  have areApart := segmentsApart logarithm valid stencil positive
  have haveValues := (wellSpaced_iff logarithm valid positive).mpr spaced
  constructor
  · apply intervalsWithValues_of_all
    intro segment member
    obtain ⟨found, isFound, exact⟩ := areApart.hasValues segment member
    rw [isFound, exact.mpr (haveValues segment member)]
  · apply List.Pairwise.imp_of_mem ?_ areApart.disjoint
    intro first second isFirst _ apart same
    obtain ⟨value, _, isIn⟩ := haveValues first isFirst
    have isInSecond := isIn
    rw [same] at isInSecond
    exact apart value ⟨isIn, isInSecond⟩

theorem intervalsByParameter_eq (logarithm : Logarithm K) (positive : 0 < stencil)
    (parameters : List ExperimentParameter)
    (names : (parameters.map (·.name)).Nodup) (valid : ∀ parameter ∈ parameters, ValidDomain parameter)
    (spaced : ∀ parameter ∈ parameters, WellSpaced parameter stencil) (start : Intervals K) :
    ∃ intervals, intervalsByParameter logarithm stencil parameters start = .ok intervals ∧
      (∀ parameter ∈ parameters, intervals parameter.name = segmentedIntervals logarithm parameter stencil) ∧
      ∀ name, name ∉ parameters.map (·.name) → intervals name = start name := by
  induction parameters generalizing start with
  | nil => exact ⟨start, rfl, fun parameter member => (nomatch member), fun name _ => rfl⟩
  | cons parameter rest inductionHypothesis =>
      rw [List.map_cons, List.nodup_cons] at names
      obtain ⟨areKept, distinct⟩ :=
        kept_segments logarithm (valid parameter List.mem_cons_self) positive
          (spaced parameter List.mem_cons_self)
      obtain ⟨intervals, areIntervals, areSegments, others⟩ :=
        inductionHypothesis names.2 (fun other member => valid other (List.mem_cons_of_mem _ member))
          (fun other member => spaced other (List.mem_cons_of_mem _ member))
          (Function.update start parameter.name (segmentedIntervals logarithm parameter stencil).dedup)
      refine ⟨intervals, ?_, ?_, ?_⟩
      · rw [intervalsByParameter, areKept]
        exact areIntervals
      · intro other member
        cases List.mem_cons.mp member with
        | inl isFirst => rw [isFirst, others _ names.1, Function.update_self, distinct.dedup]
        | inr isLater => exact areSegments other isLater
      · intro name isOther
        rw [List.map_cons, List.mem_cons, not_or] at isOther
        rw [others name isOther.2, Function.update_of_ne isOther.1]

/-- A batch of as many suggestions as the stencil is long has one value in each segment of every parameter, if each
    segment has a value. -/
theorem latinHypercube_of_wellSpaced (logarithm : Logarithm K) (sampleable : Sampleable experiment)
    (positive : 0 < stencil) (spaced : ∀ parameter ∈ allParameters experiment, WellSpaced parameter stencil)
    (draws : ℕ → ℕ → Pick K) :
    ∃ suggestions, latinHypercube logarithm experiment stencil [] stencil draws = .ok suggestions ∧
      suggestions.length = stencil ∧ HitsEachOnce logarithm experiment stencil suggestions := by
  obtain ⟨intervals, areIntervals, areSegments, _⟩ :=
    intervalsByParameter_eq logarithm positive _ sampleable.names sampleable.domains spaced fun _ => []
  have areApart : ∀ parameter ∈ allParameters experiment, SegmentsApart logarithm parameter stencil :=
    fun parameter isParameter => segmentsApart logarithm (sampleable.domains parameter isParameter) stencil positive
  have lengths : ∀ parameter ∈ allParameters experiment, (intervals parameter.name).length = stencil := by
    intro parameter isParameter
    rw [areSegments parameter isParameter]
    exact (areApart parameter isParameter).length
  have inSegments : ∀ parameter ∈ allParameters experiment, ∀ interval ∈ intervals parameter.name,
      interval ∈ segmentedIntervals logarithm parameter stencil := by
    intro parameter isParameter interval isLeft
    rw [areSegments parameter isParameter] at isLeft
    exact isLeft
  obtain ⟨suggestions, areSuggestions, count, stratified⟩ :=
    fetchSuggestions_stratified logarithm sampleable positive spaced stencil intervals inSegments
      (fun parameter isParameter => (lengths parameter isParameter).ge) draws
  refine ⟨suggestions, ?_, count, ?_⟩
  · rw [latinHypercube, buildIntervals, areIntervals]
    exact areSuggestions
  · intro parameter isParameter segment isSegment
    obtain ⟨values, areValues, areStratified⟩ := stratified parameter isParameter
    rw [areSegments parameter isParameter] at areStratified
    have asMany : values.length = (segmentedIntervals logarithm parameter stencil).length := by
      have lengthIs := congrArg List.length areValues
      rw [List.length_map, List.length_map, count] at lengthIs
      rw [← lengthIs, (areApart parameter isParameter).length]
    have once := Segments.countP_stratified (areApart parameter isParameter).disjoint areStratified asMany segment
      isSegment
    have counted : suggestions.countP (fun assignments => (assignments parameter.name).any fun value =>
        value ∈ segment) = (suggestions.map fun assignments => assignments parameter.name).countP
          fun assigned => assigned.any fun value => value ∈ segment := by
      rw [List.countP_map]
      rfl
    rw [counted, areValues, List.countP_map]
    exact once

/-! ### Values of the type -/

omit [IsStrictOrderedRing K] in
/-- Whatever is picked for a parameter is of its type. -/
theorem pickValue_ofType {parameter : ExperimentParameter} {intervals : List (Segment K)} {first second : Draw K}
    {value : K} (isPicked : pickValue logarithm parameter intervals first second = .ok value) :
    OfType parameter value := by
  intro isNumerical hasNoGrid isInteger
  have notDouble := not_isDouble_of_isInteger isInteger
  rw [pickValue] at isPicked
  split at isPicked
  · rw [randomValueForParameter, isNumerical, hasNoGrid, isInteger] at isPicked
    obtain ⟨sampled, _, isValue⟩ := bind_eq_ok.mp isPicked
    exact ⟨sampled, (Except.ok.inj isValue).symm⟩
  · obtain ⟨interval, _, isSampled⟩ := bind_eq_ok.mp isPicked
    rw [sampleFromInterval, isNumerical, hasNoGrid, notDouble] at isSampled
    obtain ⟨integers, _, isDrawn⟩ := bind_eq_ok.mp isSampled
    obtain ⟨sampled, _, isValue⟩ := bind_eq_ok.mp isDrawn
    exact ⟨sampled, (Except.ok.inj isValue).symm⟩

omit [IsStrictOrderedRing K] in
theorem pickAssignments_ofType {intervals : Intervals K} {parameters : List ExperimentParameter}
    (names : (parameters.map (·.name)).Nodup) {picks : ℕ → Pick K} {items : List (String × K)}
    (arePicked : pickAssignments logarithm intervals parameters picks = .ok items) :
    items.map Prod.fst = parameters.map (·.name) ∧
      ∀ parameter ∈ parameters, ∀ value, (parameter.name, value) ∈ items → OfType parameter value := by
  induction parameters generalizing picks items with
  | nil =>
      cases arePicked
      exact ⟨rfl, fun parameter member => absurd member List.not_mem_nil⟩
  | cons parameter rest inductionHypothesis =>
      rw [List.map_cons, List.nodup_cons] at names
      rw [pickAssignments] at arePicked
      obtain ⟨value, isPicked, arePicked⟩ := bind_eq_ok.mp arePicked
      obtain ⟨others, areOthers, areItems⟩ := bind_eq_ok.mp arePicked
      obtain ⟨otherNames, areOfType⟩ := inductionHypothesis names.2 areOthers
      cases areItems
      refine ⟨by rw [List.map_cons, List.map_cons, otherNames], ?_⟩
      intro other member itsValue isItem
      cases List.mem_cons.mp member with
      | inl isFirst =>
          rw [isFirst] at isItem ⊢
          cases List.mem_cons.mp isItem with
          | inl isFirstItem =>
              rw [(Prod.mk.inj isFirstItem).2]
              exact pickValue_ofType isPicked
          | inr isLaterItem =>
              rw [← otherNames] at names
              exact absurd (List.mem_map_of_mem isLaterItem) names.1
      | inr isLater =>
          cases List.mem_cons.mp isItem with
          | inl isFirstItem =>
              rw [← (Prod.mk.inj isFirstItem).1] at names
              exact absurd (List.mem_map_of_mem isLater) names.1
          | inr isLaterItem => exact areOfType other isLater itsValue isLaterItem

omit [IsStrictOrderedRing K] in
/-- Every suggestion gives every parameter values of its type. -/
theorem fetchSuggestions_ofType (sampleable : Sampleable experiment) {limit : ℕ} {intervals : Intervals K}
    {draws : ℕ → ℕ → Pick K} {suggestions : List (AssignmentsOf K)}
    (areSuggestions : fetchSuggestions logarithm experiment limit intervals draws = .ok suggestions) :
    ∀ assignments ∈ suggestions, ∀ parameter ∈ allParameters experiment, ∀ value,
      assignments parameter.name = some value → OfType parameter value := by
  induction limit generalizing intervals draws suggestions with
  | zero =>
      cases areSuggestions
      intro assignments member
      exact absurd member List.not_mem_nil
  | succ limit inductionHypothesis =>
      rw [fetchSuggestions] at areSuggestions
      obtain ⟨items, areItems, areSuggestions⟩ := bind_eq_ok.mp areSuggestions
      obtain ⟨others, areOthers, areAll⟩ := bind_eq_ok.mp areSuggestions
      cases areAll
      obtain ⟨names, areOfType⟩ := pickAssignments_ofType sampleable.names areItems
      intro assignments member parameter isParameter value isAssigned
      cases List.mem_cons.mp member with
      | inl isFirst =>
          have isNamed : parameter.name ∈ items.map Prod.fst := by
            rw [names]
            exact List.mem_map_of_mem isParameter
          obtain ⟨⟨name, itsValue⟩, isItem, isName⟩ := List.mem_map.mp isNamed
          cases isName
          have isSet : assignments parameter.name = some itsValue := by
            rw [isFirst]
            exact foldl_setAssignment (by rw [names]; exact sampleable.names) isItem fun _ => none
          rw [isSet] at isAssigned
          rw [← Option.some.inj isAssigned]
          exact areOfType parameter isParameter itsValue isItem
      | inr isLater => exact inductionHypothesis areOthers assignments isLater parameter isParameter value isAssigned

/-- Where every segment has a value of a suggestion, rounding has left room in each. -/
theorem wellSpaced_of_hitsEachOnce (sampleable : Sampleable experiment) (positive : 0 < stencil) {limit : ℕ}
    {rows : List (List (String × K))} {draws : ℕ → ℕ → Pick K} {suggestions : List (AssignmentsOf K)}
    (areSuggestions : latinHypercube logarithm experiment stencil rows limit draws = .ok suggestions)
    (hits : HitsEachOnce logarithm experiment stencil suggestions) :
    ∀ parameter ∈ allParameters experiment, WellSpaced parameter stencil := by
  intro parameter isParameter
  rw [latinHypercube] at areSuggestions
  obtain ⟨intervals, _, areFetched⟩ := bind_eq_ok.mp areSuggestions
  apply (wellSpaced_iff logarithm (sampleable.domains parameter isParameter) positive).mp
  intro segment isSegment
  have once := hits parameter isParameter segment isSegment
  obtain ⟨assignments, isSuggestion, isHit⟩ := List.countP_pos_iff.mp (Nat.lt_of_lt_of_eq Nat.zero_lt_one once.symm)
  obtain ⟨value, isAssigned, isIn⟩ := (Option.any_eq_true _ _).mp isHit
  have ofType := fetchSuggestions_ofType sampleable areFetched assignments isSuggestion parameter isParameter value
    isAssigned
  exact ⟨value, ofType, of_decide_eq_true isIn⟩

end

end

/-! ### Real numbers -/

/-- The logarithm of the real numbers. -/
noncomputable def realLogarithm : Logarithm ℝ where
  log10 := Real.logb 10
  pow10 := fun number => (10 : ℝ) ^ number
  pow10_log10 := fun _ isPositive => Real.rpow_logb (by norm_num) (by norm_num) isPositive
  strictMono_pow10 := Real.strictMono_rpow_of_base_gt_one (by norm_num)

/-- An integer, a number with a log transformation, and a parameter with a grid. -/
def threeParameters : ExperimentMeta :=
  { allParametersUnsorted := [
      { name := "layers", paramType := .int, bounds := ⟨1, 5⟩ },
      { name := "rate", paramType := .double, bounds := ⟨1 / 1000, 1⟩, transformation := .log },
      { name := "width", paramType := .int, bounds := ⟨8, 64⟩, gridValues := [8, 16, 32, 64] }] }

theorem mem_threeParameters {parameter : ExperimentParameter} (member : parameter ∈ allParameters threeParameters) :
    parameter ∈ threeParameters.allParametersUnsorted := by
  rw [allParameters, List.mem_insertionSort] at member
  exact (List.mem_filter.mp member).1

theorem sampleable_threeParameters : Sampleable threeParameters := by
  refine ⟨rfl, ?_, by decide, ?_⟩
  · intro parameter member
    have isOne := mem_threeParameters member
    simp only [threeParameters, List.mem_cons, List.not_mem_nil, or_false] at isOne
    rcases isOne with rfl | rfl | rfl <;> rfl
  · intro parameter member
    have isOne := mem_threeParameters member
    simp only [threeParameters, List.mem_cons, List.not_mem_nil, or_false] at isOne
    rcases isOne with rfl | rfl | rfl
    · refine ⟨by decide, by decide, fun _ _ => ⟨1, 5, by norm_num, by decide⟩, ?_, by decide, by decide⟩
      exact fun _ => by decide +kernel
    · refine ⟨by decide, by decide, fun isInteger => absurd isInteger (by decide), ?_, fun _ _ => by norm_num, ?_⟩
      · exact fun isInteger => absurd isInteger (by decide)
      · exact fun _ => ⟨by decide, fun _ => by norm_num⟩
    · refine ⟨by decide, fun _ => by decide +kernel, ?_, fun _ => by decide +kernel, by decide, by decide⟩
      exact fun _ hasNoGrid => absurd hasNoGrid (by decide)

theorem wellSpaced_threeParameters :
    ∀ parameter ∈ allParameters threeParameters, WellSpaced parameter (stencilLength threeParameters 1) := by
  have isFour : stencilLength threeParameters 1 = 4 := by decide
  rw [isFour]
  intro parameter member index inRange
  have isOne := mem_threeParameters member
  simp only [threeParameters, List.mem_cons, List.not_mem_nil, or_false] at isOne
  have isIndex : index = 0 ∨ index = 1 ∨ index = 2 ∨ index = 3 := by omega
  rcases isOne with rfl | rfl | rfl
  · intro _
    refine ⟨index + 1, ?_⟩
    rcases isIndex with rfl | rfl | rfl | rfl <;> decide +kernel
  · exact fun isInteger => absurd isInteger (by decide)
  · rw [if_pos (by decide)]
    rcases isIndex with rfl | rfl | rfl | rfl <;> decide +kernel

/-- The draw with the lowest numbers. -/
def lowestDraw : Draw ℝ := ⟨0, 0, le_rfl, one_pos⟩

/-- An integer from 0 to 25. -/
def oneRange : ExperimentMeta :=
  { allParametersUnsorted := [{ name := "layers", paramType := .int, bounds := ⟨0, 25⟩ }] }

end Zigopt.Suggestion
