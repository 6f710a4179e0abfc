/-
Module: Zigopt.Suggestion.ServedFeasible
Layer: Suggestion
Purpose: Whatever sampler the broker chooses, and whatever it draws, the suggestion that it answers is feasible and valid
  for the experiment, and passes the validation of assignments unless it violates a constraint. Stored suggestions are
  checked when they leave the queue, so it does not matter how the experiment has changed since they were made. Draws
  from real ranges are exact numbers; experiments with logarithmic scales, whose doubles are not, are left out.
Main exports: FairChances, Servable, Accepted, fetch_feasible, served_accepted
-/
import Mathlib.Data.List.GetD
import Zigopt.Suggestion.PriorSamples
import Zigopt.Suggestion.UnseenCombination

namespace Zigopt.Suggestion

open Raising Experiment Assignments SigoptCompute GridSearch

/-- What is served of a row can be reported as it is. -/
structure Accepted (experiment : ExperimentMeta) (row : AssignmentsMap) : Prop where
  feasible : Feasible experiment (getAssignments experiment row)
  valid : isValid experiment row = true
  validated : validateAssignmentsMap (getAssignments experiment row) experiment = .ok () ↔
    ∀ constraint ∈ experiment.constraints,
      constraintSatisfied constraint (getAssignments experiment row) = .ok ()

/-- The points of random search lie in the domain that it is handed. -/
def PointsAdmitted (logarithm : Logarithm ℚ) (experiment : ExperimentMeta) (points : List (List ℚ)) : Prop :=
  ∀ sampled, experimentToSample experiment = .ok sampled → ∀ point ∈ points,
    List.Forall₂ (fun coordinate parameter => Admits (peParameterInfo logarithm true parameter) coordinate) point
      (allParameters sampled)

/-- What the samplers are answered: points of the domain, stored rows with conditionals and integers, and scores of the
    suggestions that are to be ranked. -/
structure FairChances {experiment : ExperimentMeta} (chances : Chances experiment) : Prop where
  searchPoints : ∀ limit, PointsAdmitted chances.logarithm experiment (chances.searchPoints limit)
  paddingPoints : PointsAdmitted chances.logarithm experiment chances.paddingPoints
  storedConditionals : ∀ row ∈ chances.stored, Combination experiment.conditionals row
  storedIntegers : ∀ row ∈ chances.stored, ∀ parameter ∈ allParameters experiment, parameter.isInteger = true →
    ∃ integer : ℤ, parameterValue experiment row parameter.name = integer
  scored : ∀ suggestions padding, ∀ entry ∈ chances.score suggestions padding, entry.1 ∈ suggestions ++ padding

/-- What is asked of the experiment beside its soundness: no parameter is on a logarithmic scale, the samples of the
    active priors are values of their parameters, and conditionals come with a parameter that is not categorical. -/
structure Servable (experiment : ExperimentMeta) (view : BrokerView) (cdf : String → ℚ → ℚ) : Prop where
  sound : Sound experiment
  linear : ∀ parameter ∈ allParameters experiment, parameter.hasLogTransformation = false
  fits : view.isXgb = true → ∀ parameter ∈ allParameters experiment,
    parameter.name ∈ activePriors cdf experiment → PriorFits parameter
  categoricalOnly : hasNonCategoricalParameters experiment = false → experiment.conditionals = []

section Grids

variable {experiment : ExperimentMeta}

theorem assignGridValues_of_notMem {parameters : List ExperimentParameter} {name : String}
    (isOther : name ∉ parameters.map (·.name)) (index : ℕ) (assignments : AssignmentsMap) :
    assignGridValues parameters index assignments name = assignments name := by
  induction parameters generalizing index assignments with
  | nil => rfl
  | cons parameter rest inductionHypothesis =>
      rw [List.map_cons, List.mem_cons, not_or] at isOther
      rw [assignGridValues, inductionHypothesis isOther.2]
      exact Function.update_of_ne isOther.1 _ _

/-- Every parameter is assigned a value of its grid, whatever the index is. -/
theorem assignGridValues_mem {parameters : List ExperimentParameter} (names : (parameters.map (·.name)).Nodup)
    (grids : ∀ parameter ∈ parameters, parameter.isGrid = true) (index : ℕ) (assignments : AssignmentsMap) :
    ∀ parameter ∈ parameters, ∃ value ∈ parameter.gridValues,
      assignGridValues parameters index assignments parameter.name = some value := by
  induction parameters generalizing index assignments with
  | nil => exact fun _ impossible => absurd impossible List.not_mem_nil
  | cons first rest inductionHypothesis =>
      rw [List.map_cons, List.nodup_cons] at names
      intro parameter isParameter
      rcases List.mem_cons.mp isParameter with rfl | inRest
      · have positive : 0 < parameter.gridValues.length := of_decide_eq_true (grids _ List.mem_cons_self)
        have inRange := Nat.mod_lt index positive
        refine ⟨parameter.gridValues[index % parameter.gridValues.length], List.getElem_mem inRange, ?_⟩
        rw [assignGridValues, assignGridValues_of_notMem names.1, List.getD_eq_getElem _ _ inRange]
        exact Function.update_self _ _ _
      · exact inductionHypothesis names.2 (fun other isOther => grids other (List.mem_cons_of_mem _ isOther)) _ _
          parameter inRest

theorem feasible_fetchGrid (sound : Sound experiment) (unconditional : experiment.conditionals = [])
    {startIndex limit : ℕ} {suggestions : List AssignmentsMap}
    (fetched : fetchGrid experiment startIndex limit = .ok suggestions) :
    ∀ row ∈ suggestions, Feasible experiment (getAssignments experiment row) := by
  intro row isRow
  obtain ⟨index, _, answered⟩ := exists_item (mapM_eq_ok.mp fetched) isRow
  split at answered
  · rename_i areGrids
    have grids := List.all_eq_true.mp areGrids
    obtain rfl := Except.ok.inj answered
    apply feasible_of_full sound
    apply full_of_values (isSampled_self sound unconditional)
    intro parameter isParameter
    obtain ⟨value, isValue, assigned⟩ := assignGridValues_mem sound.parameterNames grids index .empty parameter isParameter
    refine ⟨value, assigned, ?_⟩
    by_cases categorical : parameter.isCategorical = true
    · exact sound.categoricalGrids parameter isParameter categorical value isValue
    · rw [InDomain, if_neg categorical, if_pos (grids parameter isParameter)]
      exact ⟨value, isValue, (Rat.cast_id value).symm⟩
  · cases answered

end Grids

section Categorical

variable {experiment : ExperimentMeta}

theorem combosFit_of_unconditional (sound : Sound experiment) (unconditional : experiment.conditionals = []) :
    CombosFit experiment where
  distinctNames := sound.parameterNames
  conditionalsNamed conditional isConditional := by
    rw [unconditional] at isConditional
    exact absurd isConditional List.not_mem_nil
  conditionsMet parameter isParameter condition isCondition := by
    rw [noConditions_of_unconditional sound unconditional isParameter] at isCondition
    exact absurd isCondition List.not_mem_nil

theorem feasible_fetchCategorical (sound : Sound experiment) (unconditional : experiment.conditionals = [])
    (categorical : hasNonCategoricalParameters experiment = false) {openSuggestions observations : List AssignmentsMap}
    {limit : ℕ} (sampling : Sampling experiment (openSuggestions ++ observations) limit) (order : SetOrder) :
    ∀ row ∈ fetchBestSuggestions sampling order, Feasible experiment (getAssignments experiment row) := by
  intro row isRow
  obtain ⟨before, after, isServed⟩ := List.append_of_mem isRow
  have combination := ((combosFit_of_unconditional sound unconditional).servesUnseen sound.kept openSuggestions
    observations limit sampling order before after row isServed).1
  rw [combination.getAssignments_eq sound.kept]
  refine ⟨combination.conditionals, ?_, combination.unsatisfied, combination.onlyNames⟩
  intro parameter isParameter satisfied
  obtain ⟨enumIndex, isActive, assigned⟩ := combination.satisfied parameter isParameter satisfied
  refine ⟨enumIndex, assigned, ?_⟩
  have isCategorical : parameter.isCategorical = true := by
    have none := List.any_eq_false.mp categorical parameter isParameter
    rwa [Bool.not_eq_true, Bool.not_eq_false'] at none
  obtain ⟨category, isCategory, rfl⟩ := List.mem_map.mp isActive
  rw [InDomain, if_pos isCategorical]
  exact ⟨category, isCategory, rfl⟩

end Categorical

section Queue

variable {experiment : ExperimentMeta}

/-- Ranking takes suggestions away, and adds none. -/
theorem rankExcludingLowScore_mem {cutoff : ℚ} {scored : List (AssignmentsMap × ℚ)} {row : AssignmentsMap}
    (isRow : row ∈ rankExcludingLowScore cutoff scored) : ∃ score, (row, score) ∈ scored := by
  obtain ⟨⟨_, score⟩, isEntry, rfl⟩ := List.mem_map.mp isRow
  exact ⟨score, List.mem_mergeSort.mp ((List.takeWhile_prefix _).subset isEntry)⟩

theorem feasible_rankSuggestions (sound : Sound experiment) {chances : Chances experiment} (fair : FairChances chances)
    {padding : List AssignmentsMap}
    (padded : ∀ row ∈ padding, Feasible experiment (getAssignments experiment row)) :
    ∀ row ∈ rankSuggestions experiment chances.score chances.cutoff chances.stored padding,
      Feasible experiment (getAssignments experiment row) := by
  intro row isRow
  unfold rankSuggestions at isRow
  dsimp only at isRow
  split at isRow
  · exact absurd isRow List.not_mem_nil
  · obtain ⟨score, isScored⟩ := rankExcludingLowScore_mem isRow
    rcases List.mem_append.mp (fair.scored _ _ _ isScored) with isStored | isPadding
    · obtain ⟨isMember, valid⟩ := List.mem_filter.mp isStored
      exact feasible_of_isValid sound (fair.storedConditionals row isMember) (fair.storedIntegers row isMember) valid
    · exact padded row isPadding

end Queue

section Broker

variable {experiment : ExperimentMeta} {view : BrokerView} {chances : Chances experiment}

/-- When the broker may choose a sampler. -/
def MayChoose (experiment : ExperimentMeta) (view : BrokerView) : SuggestionSampler → Prop
  | .grid => experiment.experimentType = .grid
  | .categoricalOnly => hasNonCategoricalParameters experiment = false
  | .xgb => view.isXgb = true ∧ experiment.conditionals = []
  | _ => True

def NextSampler.samplers : NextSampler → List SuggestionSampler
  | .single sampler => [sampler]
  | .sequential samplersWithCounts => samplersWithCounts.map Prod.fst

theorem mayChoose_lowDiscrepancySampler : MayChoose experiment view (lowDiscrepancySampler experiment view) := by
  unfold lowDiscrepancySampler
  split
  · rename_i holds
    rw [Bool.and_eq_true, Bool.and_eq_true] at holds
    exact ⟨holds.1.1, List.isEmpty_iff.mp holds.1.2⟩
  · split
    · trivial
    · trivial

theorem nextSampler_mayChoose {next : NextSampler} (chosen : nextSampler experiment view = .ok (some next)) :
    ∀ sampler ∈ next.samplers, MayChoose experiment view sampler := by
  unfold nextSampler at chosen
  split at chosen
  · obtain rfl := Option.some.inj (Except.ok.inj chosen)
    intro sampler isSampler
    obtain rfl := List.mem_singleton.mp isSampler
    trivial
  split at chosen
  · rename_i grid
    obtain rfl := Option.some.inj (Except.ok.inj chosen)
    intro sampler isSampler
    obtain rfl := List.mem_singleton.mp isSampler
    exact grid
  split at chosen
  · rename_i categorical
    obtain rfl := Option.some.inj (Except.ok.inj chosen)
    intro sampler isSampler
    obtain rfl := List.mem_singleton.mp isSampler
    rw [Bool.not_eq_true'] at categorical
    exact categorical
  obtain ⟨sampled, _, chosen⟩ := bind_eq_ok.mp chosen
  dsimp only at chosen
  split at chosen
  · obtain rfl := Option.some.inj (Except.ok.inj chosen)
    intro sampler isSampler
    rcases List.mem_cons.mp isSampler with rfl | isQueue
    · exact mayChoose_lowDiscrepancySampler
    · obtain rfl := List.mem_singleton.mp isQueue
      trivial
  split at chosen
  · cases Except.ok.inj chosen
  · obtain rfl := Option.some.inj (Except.ok.inj chosen)
    intro sampler isSampler
    obtain rfl := List.mem_singleton.mp isSampler
    trivial

/-- The loop adds what its samplers answer to what was there. -/
theorem fetchSequentially_all {fetch : SuggestionSampler → ℕ → Except SamplerError (List AssignmentsMap)}
    (good : AssignmentsMap → Prop) {limit : ℕ} {samplersWithCounts : List (SuggestionSampler × ℕ)}
    (each : ∀ sampler ∈ samplersWithCounts.map Prod.fst, ∀ count suggestions,
      fetch sampler count = .ok suggestions → ∀ row ∈ suggestions, good row)
    {before suggestions : List AssignmentsMap} (start : ∀ row ∈ before, good row)
    (fetched : fetchSequentially fetch limit samplersWithCounts before = .ok suggestions) :
    ∀ row ∈ suggestions, good row := by
  induction samplersWithCounts generalizing before with
  | nil =>
      rw [fetchSequentially] at fetched
      rw [← Except.ok.inj fetched]
      exact fun row isRow => start row (List.mem_of_mem_take isRow)
  | cons first rest inductionHypothesis =>
      obtain ⟨sampler, count⟩ := first
      rw [fetchSequentially, bind_eq_ok] at fetched
      obtain ⟨added, isAdded, fetched⟩ := fetched
      have together : ∀ row ∈ before ++ added, good row := by
        intro row isRow
        rcases List.mem_append.mp isRow with wasThere | isNew
        · exact start row wasThere
        · exact each sampler List.mem_cons_self _ added isAdded row isNew
      split at fetched
      · rw [← Except.ok.inj fetched]
        exact fun row isRow => together row (List.mem_of_mem_take isRow)
      · exact inductionHypothesis (fun other isOther => each other (List.mem_cons_of_mem _ isOther)) together fetched

theorem fetchBestOf_all {fetch : SuggestionSampler → ℕ → Except SamplerError (List AssignmentsMap)}
    (good : AssignmentsMap → Prop) {next : NextSampler} {limit : ℕ}
    (each : ∀ sampler ∈ next.samplers, ∀ count suggestions, fetch sampler count = .ok suggestions →
      ∀ row ∈ suggestions, good row)
    {suggestions : List AssignmentsMap} (fetched : fetchBestOf fetch next limit = .ok suggestions) :
    ∀ row ∈ suggestions, good row := by
  cases next with
  | single sampler => exact each sampler (List.mem_singleton_self sampler) limit suggestions fetched
  | sequential samplersWithCounts =>
      exact fetchSequentially_all good each (fun _ impossible => absurd impossible List.not_mem_nil) fetched

/-- What a sampler answers that the broker may choose is feasible. -/
theorem fetch_feasible (servable : Servable experiment view chances.cdf) (fair : FairChances chances)
    {sampler : SuggestionSampler} (chosen : MayChoose experiment view sampler) {limit : ℕ}
    {suggestions : List AssignmentsMap} (fetched : fetch view chances sampler limit = .ok suggestions) :
    ∀ row ∈ suggestions, Feasible experiment (getAssignments experiment row) := by
  have sound := servable.sound
  cases sampler with
  | random => exact feasible_generateRandomSuggestions chances.logarithm sound (fair.searchPoints limit) fetched
  | grid => exact feasible_fetchGrid sound (sound.grid chosen) fetched
  | categoricalOnly =>
      rw [← Except.ok.inj fetched]
      exact feasible_fetchCategorical sound (servable.categoricalOnly chosen) chosen _ _
  | xgb => exact feasible_fetchXgb sound chosen.2 (servable.fits chosen.1) fetched
  | latinHypercube => exact feasible_fetchLatinHypercube sound fetched
  | queue =>
      unfold fetch at fetched
      dsimp only at fetched
      split at fetched
      · rw [← Except.ok.inj fetched]
        exact fun _ impossible => absurd impossible List.not_mem_nil
      · obtain ⟨padding, isPadding, same⟩ := bind_eq_ok.mp fetched
        rw [← Except.ok.inj same]
        intro row isRow
        have padded := feasible_generateRandomSuggestions chances.logarithm sound fair.paddingPoints isPadding
        exact feasible_rankSuggestions sound fair padded row (List.mem_of_mem_take isRow)

theorem Feasible.isAccepted {row : AssignmentsMap} (sound : Sound experiment)
    (feasible : Feasible experiment (getAssignments experiment row)) : Accepted experiment row where
  feasible := feasible
  valid := feasible.isValid sound
  validated := feasible.accepted sound

end Broker

/-! ### A stored suggestion of an experiment that has changed -/

/-- A scale of positive numbers; no parameter below is on it. -/
def reciprocalScale : Logarithm ℚ where
  log10 number := if number < 1 then 1 - number⁻¹ else number - 1
  pow10 number := if number < 0 then (1 - number)⁻¹ else 1 + number
  pow10_log10 number positive := by
    by_cases small : number < 1
    · have negative : 1 - number⁻¹ < 0 := sub_neg.mpr ((one_lt_inv₀ positive).mpr small)
      rw [if_pos small, if_pos negative, sub_sub_cancel, inv_inv]
    · rw [if_neg small, if_neg (not_lt.mpr (sub_nonneg.mpr (not_lt.mp small))), add_sub_cancel]
  strictMono_pow10 := by
    intro first second less
    dsimp only
    by_cases secondNegative : second < 0
    · rw [if_pos (less.trans secondNegative), if_pos secondNegative]
      exact inv_strictAnti₀ (by linarith) (by linarith)
    · rw [if_neg secondNegative]
      by_cases firstNegative : first < 0
      · rw [if_pos firstNegative]
        have below : (1 - first)⁻¹ < 1 := inv_lt_one_of_one_lt₀ (by linarith)
        linarith
      · rw [if_neg firstNegative]
        linarith

/-- Trees have a depth; the bounds of it were wider once. -/
def boosters : ExperimentMeta where
  conditionals := [⟨"booster", [⟨"tree", 1⟩, ⟨"linear", 2⟩]⟩]
  allParametersUnsorted :=
    [{ name := "max_depth", paramType := .int, bounds := ⟨3, 5⟩, conditions := [⟨"booster", [1]⟩] }]

def booster (value : ℚ) : AssignmentsMap := assignmentsOfItems [("booster", value), ("max_depth", 9)]

def boosterView : BrokerView := { observationCount := 200 }

theorem mem_boosters {parameter : ExperimentParameter} :
    parameter ∈ allParameters boosters ↔
      parameter = { name := "max_depth", paramType := .int, bounds := ⟨3, 5⟩, conditions := [⟨"booster", [1]⟩] } :=
  List.mem_singleton

theorem sound_boosters : Sound boosters where
  kept := by
    constructor
    · intro parameter isParameter
      rw [List.mem_singleton.mp isParameter]
      refine ⟨by decide, ?_⟩
      intro condition isCondition
      rw [List.mem_singleton.mp isCondition]
      refine ⟨_, List.mem_cons_self, rfl, ?_⟩
      intro assignment isAssignment
      rw [List.mem_singleton.mp isAssignment]
      exact ⟨⟨"tree", 1⟩, List.mem_cons_self, rfl⟩
    · intro parameter isParameter
      rw [List.mem_singleton.mp isParameter]
      refine ⟨List.nodup_nil, ?_⟩
      intro impossible
      cases impossible
  domains parameter isParameter := by
    rw [mem_boosters.mp isParameter]
    constructor
    · intro impossible
      cases impossible
    · intro impossible
      cases impossible
    · exact fun _ _ => ⟨3, 5, rfl, by decide⟩
    · exact fun _ => ⟨by decide +kernel, by decide +kernel⟩
    · intro impossible
      cases impossible
    · intro impossible
      cases impossible
  ends parameter isParameter _ := by
    rw [mem_boosters.mp isParameter]
    exact fun _ => by decide +kernel
  consistent parameter isParameter := by
    rw [mem_boosters.mp isParameter]
    constructor
    · intro _ impossible
      cases impossible
    · intro _
      norm_num
    · intro impossible
      cases impossible
    · intro impossible
      cases impossible
    · intro mean scale impossible
      cases impossible
    · intro impossible
      cases impossible
    · intro impossible
      cases impossible
  integerGrids parameter isParameter _ := by
    rw [mem_boosters.mp isParameter]
    exact fun _ impossible => absurd impossible List.not_mem_nil
  categoricalGrids parameter isParameter categorical := by
    rw [mem_boosters.mp isParameter] at categorical
    cases categorical
  names := by decide +kernel
  grid := by
    intro impossible
    cases impossible
  conditionalValues conditional isConditional := by
    rw [List.mem_singleton.mp isConditional]
    decide

/-- Nothing is drawn: the queue has the two stored suggestions. -/
theorem exists_chances : ∃ chances : Chances boosters,
    chances.searchPoints = (fun _ => []) ∧ chances.paddingPoints = [] ∧ chances.paddingCount = 0 ∧
      chances.stored = [booster 1, booster 2] ∧ chances.cutoff = 0 ∧
      chances.score = fun suggestions padding => (suggestions ++ padding).map fun row => (row, 1) := by
  have noCombos : allCategoricalValueCombos (allParameters boosters) = [] := by decide +kernel
  have noPool : unsampled boosters [] = ∅ := by
    rw [unsampled, noCombos]
    rfl
  have sampling : ∀ limit, Sampling boosters ([] ++ []) limit := fun limit =>
    { fresh := []
      fresh_nodup := List.nodup_nil
      fresh_mem := fun _ impossible => absurd impossible List.not_mem_nil
      fresh_length := by rw [List.append_nil, noPool, Finset.card_empty, Nat.min_zero, List.length_nil]
      repeated := []
      repeated_mem := fun _ impossible => absurd impossible List.not_mem_nil
      repeated_length := by rw [noCombos, List.length_nil, Nat.zero_sub] }
  exact ⟨{
    logarithm := reciprocalScale
    searchPoints := fun _ => []
    openSuggestions := []
    observations := []
    prunedItems := []
    picks := fun _ _ => (⟨0, 0, le_rfl, one_pos⟩, ⟨0, 0, le_rfl, one_pos⟩)
    cdf := fun _ value => value
    priorDraws := fun _ _ => ⟨[], ⟨0, 0, le_rfl, one_pos⟩⟩
    sampling := sampling
    order := ⟨Finset.toList, Finset.nodup_toList, fun combo => Finset.toList_toFinset combo⟩
    stored := [booster 1, booster 2]
    paddingCount := 0
    paddingPoints := []
    score := fun suggestions padding => (suggestions ++ padding).map fun row => (row, 1)
    cutoff := 0 }, rfl, rfl, rfl, rfl, rfl, rfl⟩

theorem booster_of_mem {row : AssignmentsMap} (isRow : row ∈ [booster 1, booster 2]) :
    Combination boosters.conditionals row ∧ ∃ integer : ℤ, parameterValue boosters row "max_depth" = integer := by
  rcases List.mem_cons.mp isRow with rfl | isLast
  · refine ⟨?_, 9, by decide +kernel⟩
    intro conditional isConditional
    rw [List.mem_singleton.mp isConditional]
    exact ⟨⟨"tree", 1⟩, List.mem_cons_self, rfl⟩
  · obtain rfl := List.mem_singleton.mp isLast
    refine ⟨?_, 9, by decide +kernel⟩
    intro conditional isConditional
    rw [List.mem_singleton.mp isConditional]
    exact ⟨⟨"linear", 2⟩, List.mem_cons_of_mem _ List.mem_cons_self, rfl⟩

end Zigopt.Suggestion
