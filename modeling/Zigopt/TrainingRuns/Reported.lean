/-
Module: Zigopt.TrainingRuns.Reported
Layer: Proofs
Purpose: When the observation of a completed run can be created: the handler builds the request for it from
  the values of the run, and the checks of observations are followed on that request.
Main exports: NamesRefused, RefusesObservation, createObservation_failed, createObservation_reported,
  observationOfRun_error_iff
-/
import Mathlib.Data.List.Nodup
import Mathlib.Tactic.Common
import Zigopt.TrainingRuns.Update

namespace Zigopt.TrainingRuns

open Raising Observations

section Request

variable {suggestionId : Nat} {reported : List JsonObject × Bool}

/-! ### The members of the request -/

theorem observationJsonOf_values :
    JsonObject.get (observationJsonOf suggestionId reported) "values" = .array (reported.1.map .object) := by
  simp [observationJsonOf, JsonObject.get, List.lookup_cons]

theorem observationJsonOf_failed :
    JsonObject.get (observationJsonOf suggestionId reported) "failed" = .boolean reported.2 := by
  simp [observationJsonOf, JsonObject.get, List.lookup_cons]

theorem observationJsonOf_assignments :
    JsonObject.get (observationJsonOf suggestionId reported) "assignments" = .null := by
  simp [observationJsonOf, JsonObject.get, List.lookup_cons]

theorem readValues_observationJsonOf :
    readValues (observationJsonOf suggestionId reported) = .ok (some reported.1) :=
  readValues_eq_some.mpr observationJsonOf_values

theorem readFailed_observationJsonOf :
    getOptWithValidation (observationJsonOf suggestionId reported) "failed" .boolean =
      .ok (some reported.2) := by
  rw [getOptWithValidation, observationJsonOf_failed]
  rfl

/-- The request passes the first checks, as a failed run reports no values and one that has not failed
    reports some. -/
theorem validateObservationJsonDictForCreate_observationJsonOf
    (accepted : ∀ value ∈ reported.1, valueItemAccepted (.object value) = true)
    (valuesOrFailed : reported.1 = [] ↔ reported.2 = true) :
    validateObservationJsonDictForCreate (observationJsonOf suggestionId reported) = .ok () := by
  have schema : validateObservationSchema (observationJsonOf suggestionId reported) = .ok () := by
    rw [validateObservationSchema, raiseIf_eq_ok]
    simp only [observationJsonOf, List.all_cons, List.all_nil, memberAccepted, Bool.and_true, Bool.true_and,
      List.all_map, Bool.not_eq_false]
    exact List.all_eq_true.mpr accepted
  have present : JsonObject.isPresent (observationJsonOf suggestionId reported) "assignments" = false := by
    rw [JsonObject.isPresent, observationJsonOf_assignments]
  have hasSuggestion : JsonObject.hasKey (observationJsonOf suggestionId reported) "suggestion" = true := by
    simp [observationJsonOf, JsonObject.hasKey]
  rw [validateObservationJsonDictForCreate, schema, ok_bind, readFailed_observationJsonOf, ok_bind,
    readValues_observationJsonOf, ok_bind, raiseIf, if_neg, ok_bind, raiseIf, if_neg, ok_bind, raiseIf, if_neg,
    ok_bind, raiseIf, if_neg]
  · rintro ⟨notFailed, noValues⟩
    rw [Option.getD_some] at noValues
    exact notFailed (congrArg some (valuesOrFailed.mp noValues))
  · rintro neither
    exact neither (.inl hasSuggestion)
  · rintro ⟨_, assignmentsPresent⟩
    rw [present] at assignmentsPresent
    cases assignmentsPresent
  · rintro ⟨failed, values⟩
    rw [Option.getD_some] at values
    exact values (valuesOrFailed.mpr (Option.some.inj failed))

/-- What is left of the creation: the data from the values, then the suggestion. -/
theorem createObservation_observationJsonOf (sections : ObservationSections) (experiment : MetricsExperiment)
    (accepted : ∀ value ∈ reported.1, valueItemAccepted (.object value) = true)
    (valuesOrFailed : reported.1 = [] ↔ reported.2 = true) :
    createObservation sections experiment (observationJsonOf suggestionId reported) =
      createObservationData {} (some reported.1) experiment (some reported.2) >>= fun data =>
        setObservationSuggestion sections experiment data suggestionId := by
  have keptFailed : failedOrKept (some reported.2) (some reported.1) {} = some reported.2 := by
    rw [failedOrKept, if_neg]
    rintro ⟨impossible, _⟩
    cases impossible
  rw [createObservation, validateObservationJsonDictForCreate_observationJsonOf accepted valuesOrFailed, ok_bind,
    observationFromJson, readFailed_observationJsonOf, ok_bind, readValues_observationJsonOf, ok_bind, keptFailed]
  -- the request has no metadata, no assignments and no task
  congr 1

end Request

/-! ### The values of a run -/

section Values

variable {calls : Calls} {data : JsonObject}

/-- The value that a run reports for a metric, if it has one. -/
def reportOf (calls : Calls) (data : JsonObject) (metric : ExperimentMetric) : Option JsonObject :=
  (valueNamed data metric.name).map fun value =>
    [("name", .string metric.name), ("value", .number value.value),
      ("value_stddev", .number (calls.sqrt value.valueVar))]

/-- No metric has a negative variance, of which there is no square root. -/
def VariancesNonneg (data : JsonObject) (metrics : List ExperimentMetric) : Prop :=
  ∀ metric ∈ metrics, ∀ value, valueNamed data metric.name = some value → 0 ≤ value.valueVar

theorem getObservationValues_ok {metrics : List ExperimentMetric} (nonneg : VariancesNonneg data metrics) :
    getObservationValues calls data metrics = .ok (metrics.filterMap (reportOf calls data)) := by
  induction metrics with
  | nil => rfl
  | cons metric rest inductionHypothesis =>
      have later := inductionHypothesis fun other member => nonneg other (List.mem_cons_of_mem _ member)
      rw [getObservationValues]
      cases found : valueNamed data metric.name with
      | none =>
          have unreported : reportOf calls data metric = none := by rw [reportOf, found, Option.map_none]
          rw [List.filterMap_cons_none unreported]
          exact later
      | some value =>
          have notNegative := nonneg metric List.mem_cons_self value found
          have root : mathSqrt calls value.valueVar = .ok (calls.sqrt value.valueVar) := by
            rw [mathSqrt, if_neg (Rat.not_lt.mpr notNegative)]
          have isReport : reportOf calls data metric = some [("name", .string metric.name),
              ("value", .number value.value), ("value_stddev", .number (calls.sqrt value.valueVar))] := by
            rw [reportOf, found, Option.map_some]
          rw [List.filterMap_cons_some isReport]
          dsimp only
          rw [root, ok_bind, later, ok_bind]
          rfl

theorem getObservationValues_error (calls : Calls) {metrics : List ExperimentMetric} (negative : ¬VariancesNonneg data metrics) :
    ∃ failure, getObservationValues calls data metrics = .error failure := by
  induction metrics with
  | nil => exact absurd (fun _ member => by cases member) negative
  | cons metric rest inductionHypothesis =>
      rw [getObservationValues]
      cases found : valueNamed data metric.name with
      | none =>
          apply inductionHypothesis
          intro laterNonneg
          apply negative
          intro other member value foundOther
          rcases List.mem_cons.mp member with rfl | later
          · rw [found] at foundOther
            cases foundOther
          · exact laterNonneg other later value foundOther
      | some value =>
          dsimp only
          by_cases below : value.valueVar < 0
          · refine ⟨.valueError "math domain error", ?_⟩
            rw [mathSqrt, if_pos below, error_bind]
          · rw [mathSqrt, if_neg below, ok_bind]
            have laterNegative : ¬VariancesNonneg data rest := by
              intro laterNonneg
              apply negative
              intro other member otherValue foundOther
              rcases List.mem_cons.mp member with rfl | later
              · rw [found] at foundOther
                cases foundOther
                exact Rat.not_lt.mp below
              · exact laterNonneg other later otherValue foundOther
            rcases inductionHypothesis laterNegative with ⟨failure, failed⟩
            exact ⟨failure, by rw [failed, error_bind]⟩

/-- The run has a value for every metric. -/
def Complete (data : JsonObject) (metrics : List ExperimentMetric) : Prop :=
  ∀ metric ∈ metrics, (valueNamed data metric.name).isSome = true

theorem reportOf_isSome (metric : ExperimentMetric) :
    (reportOf calls data metric).isSome = (valueNamed data metric.name).isSome := by
  rw [reportOf, Option.isSome_map]

theorem length_reports_iff (calls : Calls) (metrics : List ExperimentMetric) :
    (metrics.filterMap (reportOf calls data)).length = metrics.length ↔ Complete data metrics := by
  rw [List.filterMap_length_eq_length]
  constructor
  · intro all metric member
    rw [← reportOf_isSome]
    exact all metric member
  · intro complete metric member
    rw [reportOf_isSome]
    exact complete metric member

theorem valueItemAccepted_report {metric : ExperimentMetric} {report : JsonObject}
    (reported : reportOf calls data metric = some report) : valueItemAccepted (.object report) = true := by
  rw [reportOf, Option.map_eq_some_iff] at reported
  rcases reported with ⟨value, _, rfl⟩
  have nonneg := calls.sqrt_nonneg value.valueVar
  simp [valueItemAccepted, JsonObject.get, List.lookup_cons, ValidationType.number, isStringOrNull, nonneg]

theorem valueName_report {metric : ExperimentMetric} {report : JsonObject}
    (reported : reportOf calls data metric = some report) : valueName report = some metric.name := by
  rw [reportOf, Option.map_eq_some_iff] at reported
  rcases reported with ⟨value, _, rfl⟩
  rfl

/-- The names of the reports are those of the metrics. -/
theorem valueName_reports {metrics : List ExperimentMetric} (complete : Complete data metrics) :
    (metrics.filterMap (reportOf calls data)).map valueName = metrics.map fun metric => some metric.name := by
  induction metrics with
  | nil => rfl
  | cons metric rest inductionHypothesis =>
      have later := inductionHypothesis fun other member => complete other (List.mem_cons_of_mem _ member)
      have reported : (reportOf calls data metric).isSome = true := by
        rw [reportOf_isSome]
        exact complete metric List.mem_cons_self
      rcases Option.isSome_iff_exists.mp reported with ⟨report, isReport⟩
      rw [List.filterMap_cons_some isReport, List.map_cons, List.map_cons, later, valueName_report isReport]

theorem formattedValue_report {metric : ExperimentMetric} {report : JsonObject}
    (reported : reportOf calls data metric = some report) :
    ∃ value, formattedValue [] report = .ok value := by
  rw [reportOf, Option.map_eq_some_iff] at reported
  rcases reported with ⟨value, _, rfl⟩
  exact ⟨_, rfl⟩

/-! ### Refusals -/

/-- Two metrics of one name, or an unnamed metric beside others, of which no values are accepted. -/
def NamesRefused (metrics : List ExperimentMetric) : Prop :=
  ¬(metrics.map ExperimentMetric.name).Nodup ∨
    (2 ≤ metrics.length ∧ "" ∈ metrics.map ExperimentMetric.name)

theorem nonEmptyNames_length_lt_iff (names : List String) :
    (nonEmptyNames (names.map some)).length < (names.map some).length ↔ "" ∈ names := by
  rw [nonEmptyNames, List.length_filter_lt_length_iff_exists]
  simp

theorem nodup_map_some (names : List String) : (names.map some).Nodup ↔ names.Nodup :=
  List.nodup_map_iff (Option.some_injective _)

theorem validateMetricNames_error_iff {values : List JsonObject} {experiment : MetricsExperiment}
    (names : values.map valueName = (experiment.allMetrics.map ExperimentMetric.name).map some) :
    (∃ failure, validateMetricNames values experiment = .error failure) ↔
      NamesRefused experiment.allMetrics := by
  have someMetric : experiment.allMetrics.map ExperimentMetric.name ≠ [] := by
    intro noNames
    exact experiment.allMetrics_ne_nil (List.map_eq_nil_iff.mp noNames)
  have sameLength : ((experiment.allMetrics.map ExperimentMetric.name).map some).length =
      experiment.allMetrics.length := by rw [List.length_map, List.length_map]
  have covered : ¬∃ metric ∈ experiment.allMetrics.map ExperimentMetric.name,
      some metric ∉ (experiment.allMetrics.map ExperimentMetric.name).map some := by
    rintro ⟨metric, member, absent⟩
    exact absent (List.mem_map_of_mem member)
  rw [validateMetricNames, names]
  dsimp only
  by_cases distinct : (experiment.allMetrics.map ExperimentMetric.name).Nodup
  · rw [raiseIf, if_neg (by rw [not_not, nodup_map_some]; exact distinct), ok_bind]
    by_cases unnamed : 2 ≤ experiment.allMetrics.length ∧ "" ∈ experiment.allMetrics.map ExperimentMetric.name
    · apply iff_of_true
      · refine ⟨.invalidKey "A name must be specified for all values." none, ?_⟩
        rw [raiseIf, if_pos, error_bind]
        exact ⟨sameLength ▸ unnamed.1, (nonEmptyNames_length_lt_iff _).mpr unnamed.2⟩
      · exact .inr unnamed
    · apply iff_of_false
      · rintro ⟨failure, failed⟩
        rw [raiseIf, if_neg, ok_bind, raiseIf, if_neg, ok_bind] at failed
        · split at failed
          · exact pure_ne_error failed
          · rw [raiseIf, if_neg covered] at failed
            cases failed
        · exact fun noMetrics => someMetric noMetrics.1
        · rintro ⟨several, dropped⟩
          exact unnamed ⟨sameLength ▸ several, (nonEmptyNames_length_lt_iff _).mp dropped⟩
      · rintro (repeated | unnamed')
        · exact repeated distinct
        · exact unnamed unnamed'
  · apply iff_of_true
    · rw [raiseIf, if_pos (by rw [nodup_map_some]; exact distinct), error_bind]
      exact ⟨_, rfl⟩
    · exact .inl distinct

/-- The values that a run reports for all metrics are refused exactly if the names of the metrics are. -/
theorem getFormattedValues_reports (calls : Calls) (experiment : MetricsExperiment)
    (complete : Complete data experiment.allMetrics) :
    (∃ failure, getFormattedValues (experiment.allMetrics.filterMap (reportOf calls data)) experiment [] =
      .error failure) ↔ NamesRefused experiment.allMetrics := by
  have sameLength := (length_reports_iff calls experiment.allMetrics).mpr complete
  have names : (experiment.allMetrics.filterMap (reportOf calls data)).map valueName =
      (experiment.allMetrics.map ExperimentMetric.name).map some := by
    rw [valueName_reports complete, List.map_map]
    rfl
  have formatted : ∀ failure, (experiment.allMetrics.filterMap (reportOf calls data)).mapM (formattedValue []) ≠
      .error failure := by
    intro failure failed
    rcases mapM_eq_error failed with ⟨report, member, refused⟩
    rcases List.mem_filterMap.mp member with ⟨metric, _, reported⟩
    rcases formattedValue_report reported with ⟨value, accepted⟩
    rw [accepted] at refused
    cases refused
  rw [getFormattedValues, raiseIf, if_neg (not_not.mpr sameLength.symm), ok_bind,
    ← validateMetricNames_error_iff names]
  constructor
  · rintro ⟨failure, failed⟩
    rcases bind_eq_error.mp failed with refused | ⟨_, _, refused⟩
    · exact ⟨failure, refused⟩
    · exact absurd refused (formatted failure)
  · rintro ⟨failure, refused⟩
    exact ⟨failure, by rw [refused, error_bind]⟩

/-- An observation of the run is refused: the square root of a variance or the values of all metrics are, or
    the suggestion belongs to another experiment. -/
def RefusesObservation (experiment : Experiment) (data : JsonObject) (suggestion : ProcessedSuggestion) : Prop :=
  (stateOf data ≠ .failed ∧
    (¬VariancesNonneg data experiment.allMetrics.allMetrics ∨
      (Complete data experiment.allMetrics.allMetrics ∧ NamesRefused experiment.allMetrics.allMetrics))) ∨
    suggestion.experimentId ≠ experiment.id

theorem findSuggestionOf_natCast {experiment : Experiment} {store : Store} {suggestion : ProcessedSuggestion}
    {suggestionId : Nat} (found : store.findSuggestion suggestionId = some suggestion) :
    findSuggestionOf experiment store (suggestionId : ℤ) =
      if suggestion.experimentId = experiment.id then some (servedSuggestion suggestion) else none := by
  rw [findSuggestionOf, if_neg (by omega), Int.toNat_natCast, found]

theorem setObservationSuggestion_error_iff {sections : ObservationSections} {experiment : MetricsExperiment}
    {data : ObservationData} {suggestionJson : ℤ} :
    (∃ failure, setObservationSuggestion sections experiment data suggestionJson = .error failure) ↔
      sections.findSuggestion suggestionJson = none := by
  unfold setObservationSuggestion
  cases sections.findSuggestion suggestionJson with
  | none => simp
  | some suggestion => simp

theorem check_error_iff {α : Type} {result : Except ValidationError α} :
    (∃ failure, check result = .error failure) ↔ ∃ failure, result = .error failure := by
  cases result with
  | ok value =>
      apply iff_of_false
      · rintro ⟨failure, impossible⟩
        cases impossible
      · rintro ⟨failure, impossible⟩
        cases impossible
  | error failure => exact iff_of_true ⟨_, rfl⟩ ⟨_, rfl⟩

theorem suggestion_error_iff {experiment : Experiment} {store : Store} {suggestion : ProcessedSuggestion}
    {suggestionId : Nat} (found : store.findSuggestion suggestionId = some suggestion)
    (observationData : ObservationData) :
    (∃ failure, setObservationSuggestion (observationSections calls experiment store) experiment.allMetrics
      observationData suggestionId = .error failure) ↔ suggestion.experimentId ≠ experiment.id := by
  apply setObservationSuggestion_error_iff.trans
  change findSuggestionOf experiment store suggestionId = none ↔ _
  rw [findSuggestionOf_natCast found]
  split
  · rename_i same
    exact iff_of_false (fun impossible => by cases impossible) (not_not.mpr same)
  · rename_i different
    exact iff_of_true rfl different

/-- A run that counts as failed reports no values, which are not refused. -/
theorem createObservation_failed {experiment : Experiment} {store : Store} {suggestion : ProcessedSuggestion}
    {suggestionId : Nat} (found : store.findSuggestion suggestionId = some suggestion) :
    (∃ failure, createObservation (observationSections calls experiment store) experiment.allMetrics
      (observationJsonOf suggestionId ([], true)) = .error failure) ↔
        suggestion.experimentId ≠ experiment.id := by
  rw [createObservation_observationJsonOf _ _ (fun _ member => by cases member) (iff_of_true rfl rfl)]
  exact suggestion_error_iff found _

/-- With a value for every metric, the observation is refused for its names or its experiment only. -/
theorem createObservation_reported {experiment : Experiment} {store : Store} {suggestion : ProcessedSuggestion}
    {suggestionId : Nat} (found : store.findSuggestion suggestionId = some suggestion)
    (complete : Complete data experiment.allMetrics.allMetrics) :
    (∃ failure, createObservation (observationSections calls experiment store) experiment.allMetrics
      (observationJsonOf suggestionId
        (experiment.allMetrics.allMetrics.filterMap (reportOf calls data), false)) = .error failure) ↔
        NamesRefused experiment.allMetrics.allMetrics ∨ suggestion.experimentId ≠ experiment.id := by
  have accepted : ∀ value ∈ experiment.allMetrics.allMetrics.filterMap (reportOf calls data),
      valueItemAccepted (.object value) = true := by
    intro value member
    rcases List.mem_filterMap.mp member with ⟨metric, _, reported⟩
    exact valueItemAccepted_report reported
  have someValues : experiment.allMetrics.allMetrics.filterMap (reportOf calls data) ≠ [] := by
    intro noValues
    have sameLength := (length_reports_iff calls experiment.allMetrics.allMetrics).mpr complete
    rw [noValues] at sameLength
    exact experiment.allMetrics.allMetrics_ne_nil (List.eq_nil_of_length_eq_zero sameLength.symm)
  rw [createObservation_observationJsonOf _ _ accepted
    (iff_of_false someValues (fun impossible => by cases impossible)),
    ← getFormattedValues_reports calls _ complete]
  dsimp only [createObservationData]
  cases formatted : getFormattedValues (experiment.allMetrics.allMetrics.filterMap (reportOf calls data))
      experiment.allMetrics [] with
  | error failure => exact iff_of_true ⟨failure, rfl⟩ (.inl ⟨failure, rfl⟩)
  | ok values =>
      rw [ok_bind]
      apply (suggestion_error_iff found _).trans
      constructor
      · exact .inr
      · rintro (⟨_, impossible⟩ | refused)
        · cases impossible
        · exact refused

/-- Exactly when the observation that a finished run asks for cannot be made. -/
theorem observationOfRun_error_iff {experiment : Experiment} {store : Store} {suggestion : ProcessedSuggestion}
    {suggestionId : Nat} (found : store.findSuggestion suggestionId = some suggestion) :
    (∃ failure, observationOfRun calls experiment data suggestionId store = .error failure) ↔
      RefusesObservation experiment data suggestion := by
  rw [observationOfRun, reportedValues, RefusesObservation]
  by_cases failed : stateOf data = .failed
  · rw [if_pos failed]
    apply check_error_iff.trans
    rw [createObservation_failed found]
    constructor
    · exact .inr
    · rintro (⟨notFailed, _⟩ | refused)
      · exact absurd failed notFailed
      · exact refused
  · rw [if_neg failed]
    by_cases nonneg : VariancesNonneg data experiment.allMetrics.allMetrics
    · rw [getObservationValues_ok nonneg, ok_bind]
      by_cases complete : Complete data experiment.allMetrics.allMetrics
      · rw [if_pos ((length_reports_iff _ _).mpr complete)]
        apply check_error_iff.trans
        apply (createObservation_reported found complete).trans
        constructor
        · rintro (namesRefused | refused)
          · exact .inl ⟨failed, .inr ⟨complete, namesRefused⟩⟩
          · exact .inr refused
        · rintro (⟨_, negative | ⟨_, namesRefused⟩⟩ | refused)
          · exact absurd nonneg negative
          · exact .inl namesRefused
          · exact .inr refused
      · rw [if_neg fun sameLength => complete ((length_reports_iff _ _).mp sameLength)]
        apply check_error_iff.trans
        apply (createObservation_failed found).trans
        constructor
        · exact .inr
        · rintro (⟨_, negative | ⟨isComplete, _⟩⟩ | refused)
          · exact absurd nonneg negative
          · exact absurd isComplete complete
          · exact refused
    · rcases getObservationValues_error calls nonneg with ⟨failure, raised⟩
      rw [raised]
      exact iff_of_true ⟨failure, rfl⟩ (.inl ⟨failed, .inl nonneg⟩)

end Values

end Zigopt.TrainingRuns
