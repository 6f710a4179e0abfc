/-
Module: Zigopt.Observations.WellFormed
Layer: Observations
Purpose: Whether every stored observation has either failed or has one number for each metric, over all
  creates and updates, and whether an update that speaks of neither is accepted. With multiple metrics
  the checks of an update take the empty measurements of a failed observation for measurements.
Main exports: WellFormed, UnfailsWithoutValues, AcceptsPlainUpdates, observations_wellFormed_iff
-/
import Zigopt.Lib.Trace
import Zigopt.Observations.Handlers

namespace Zigopt.Observations

open Raising

/-- Exactly one measurement with a number for each metric. -/
structure MeasurementsComplete (experiment : MetricsExperiment) (measurements : List ObservationValue) :
    Prop where
  length : measurements.length = experiment.allMetrics.length
  numbers : ∀ measurement ∈ measurements, measurement.value.isSome
  one : ∀ metric ∈ experiment.allMetrics,
    (measurements.filter fun measurement => measurement.name = metric.name).length = 1

/-- Reported failed with no number, or not failed with exactly one number for each metric. -/
def WellFormed (experiment : MetricsExperiment) (data : ObservationData) : Prop :=
  if data.reportedFailure then
    ∀ value ∈ data.values, value.value = none
  else
    MeasurementsComplete experiment (data.getAllMeasurements experiment)

theorem wellFormed_of_failed {experiment : MetricsExperiment} {data : ObservationData}
    (failed : data.reportedFailure = true) (noNumbers : ∀ value ∈ data.values, value.value = none) :
    WellFormed experiment data := by
  rw [WellFormed, if_pos failed]
  exact noNumbers

theorem wellFormed_of_succeeded {experiment : MetricsExperiment} {data : ObservationData}
    (succeeded : data.reportedFailure = false)
    (complete : MeasurementsComplete experiment (data.getAllMeasurements experiment)) :
    WellFormed experiment data := by
  rw [WellFormed, if_neg (by simp [succeeded])]
  exact complete

/-- The number of an observation does not depend on its other data. -/
theorem wellFormed_congr {experiment : MetricsExperiment} {data other : ObservationData}
    (sameValues : other.values = data.values) (sameFailure : other.reportedFailure = data.reportedFailure) :
    WellFormed experiment other ↔ WellFormed experiment data := by
  simp only [WellFormed, ObservationData.getAllMeasurements, ObservationData.sortedMeasurements, sameValues,
    sameFailure]

/-! ### Formatted values -/

section Formatted

variable {experiment : MetricsExperiment} {values : List JsonObject}
  {oldValues formatted : List ObservationValue}

theorem formattedValue_ok {json : JsonObject} {value : ObservationValue}
    (accepted : formattedValue oldValues json = .ok value) :
    value.name = (valueName json).getD "" ∧ value.value.isSome := by
  simp only [formattedValue, bind_eq_ok] at accepted
  rcases accepted with ⟨name, read, _, _, number, _, valueVar, _, finished⟩
  split at finished
  · rw [pure_eq_ok] at finished
    rw [← finished, valueName, getOptWithValidation_eq_read rfl read]
    exact ⟨rfl, rfl⟩
  · cases finished

/-- What the checks of the names establish. -/
structure NamesMatch (experiment : MetricsExperiment) (names : List (Option String)) : Prop where
  distinct : names.Nodup
  named : 2 ≤ names.length → ∀ name ∈ names, ∃ text, name = some text
  covering : (names.length = 1 ∧ ∀ name ∈ names, name.getD "" = "") ∨
    ∀ metric ∈ experiment.allMetrics, some metric.name ∈ names

theorem validateMetricNames_ok (accepted : validateMetricNames values experiment = .ok ()) :
    NamesMatch experiment (values.map valueName) := by
  simp only [validateMetricNames, bind_eq_ok, raiseIf_eq_ok, not_not] at accepted
  rcases accepted with ⟨_, distinct, _, allNamed, _, _, matched⟩
  refine ⟨distinct, ?_, ?_⟩
  · intro several name member
    have noneDropped : (values.map valueName).length = (nonEmptyNames (values.map valueName)).length := by
      apply le_antisymm
      · by_contra dropped
        exact allNamed ⟨several, Nat.not_le.mp dropped⟩
      · exact List.length_filter_le _ _
    have kept := (List.length_filter_eq_length_iff.mp noneDropped.symm) name member
    cases name with
    | none => simp at kept
    | some text => exact ⟨text, rfl⟩
  · split at matched
    · rename_i unnamed
      refine .inl ⟨unnamed.1, ?_⟩
      intro name member
      have dropped := List.filter_eq_nil_iff.mp (List.length_eq_zero_iff.mp unnamed.2.1) name member
      cases name with
      | none => rfl
      | some text => simpa using dropped
    · rw [raiseIf_eq_ok] at matched
      right
      intro metric member
      by_contra absent
      exact matched ⟨metric.name, List.mem_map_of_mem member, absent⟩

/-- What `get_formatted_values` answers. -/
structure ValuesFormatted (experiment : MetricsExperiment) (names : List (Option String))
    (formatted : List ObservationValue) : Prop where
  matching : NamesMatch experiment names
  length : formatted.length = experiment.allMetrics.length
  names : formatted.map (·.name) = names.map fun name => name.getD ""
  numbers : ∀ value ∈ formatted, value.value.isSome

theorem getFormattedValues_ok (accepted : getFormattedValues values experiment oldValues = .ok formatted) :
    ValuesFormatted experiment (values.map valueName) formatted := by
  simp only [getFormattedValues, bind_eq_ok, raiseIf_eq_ok, not_not] at accepted
  rcases accepted with ⟨_, sameLength, _, namesChecked, mapped⟩
  have pointwise := mapM_eq_ok.mp mapped
  refine ⟨validateMetricNames_ok namesChecked, ?_, ?_, ?_⟩
  · rw [← pointwise.length_eq, sameLength]
  · rw [List.map_map]
    clear mapped namesChecked sameLength
    induction pointwise with
    | nil => rfl
    | cons first _ inductionHypothesis =>
        rw [List.map_cons, List.map_cons, inductionHypothesis, (formattedValue_ok first).1]
        rfl
  · intro value member
    rcases exists_item pointwise member with ⟨json, _, read⟩
    exact (formattedValue_ok read).2

theorem getAllMeasurements_of_multiple {data : ObservationData}
    (multiple : experiment.hasMultipleMetrics = true) :
    data.getAllMeasurements experiment = data.sortedMeasurements := by
  rw [ObservationData.getAllMeasurements, multiple]
  split <;> simp_all

/-- In a list of distinct names, each is the name of exactly one element. -/
theorem length_filter_name {measurements : List ObservationValue} {name : String}
    (distinct : (measurements.map (·.name)).Nodup) (member : name ∈ measurements.map (·.name)) :
    (measurements.filter fun measurement => measurement.name = name).length = 1 := by
  have counted := List.count_eq_one_of_mem distinct member
  rw [List.count, List.countP_map, List.countP_eq_length_filter] at counted
  rw [← counted]
  congr 2

/-- With several metrics, the values as they are stored are complete. -/
theorem ValuesFormatted.complete_multiple {names : List (Option String)} {data : ObservationData}
    (formattedAs : ValuesFormatted experiment names data.values) (succeeded : data.reportedFailure = false)
    (multiple : experiment.hasMultipleMetrics = true) :
    MeasurementsComplete experiment (data.getAllMeasurements experiment) := by
  have several : 1 < experiment.allMetrics.length := by
    simpa [MetricsExperiment.hasMultipleMetrics] using multiple
  have hasValues : data.values ≠ [] := by
    intro empty
    have sameLength := formattedAs.length
    rw [empty, List.length_nil] at sameLength
    omega
  have namesLength : names.length = data.values.length := by
    have lengths := congrArg List.length formattedAs.names
    rw [List.length_map, List.length_map] at lengths
    exact lengths.symm
  have allNamed := formattedAs.matching.named (by rw [namesLength, formattedAs.length]; exact several)
  have perm := ObservationData.sortedMeasurements_perm succeeded hasValues
  have distinct : (data.values.map (·.name)).Nodup := by
    rw [formattedAs.names]
    apply formattedAs.matching.distinct.map_on
    intro first firstMember second secondMember same
    rcases allNamed first firstMember with ⟨firstText, rfl⟩
    rcases allNamed second secondMember with ⟨secondText, rfl⟩
    exact congrArg some same
  rw [getAllMeasurements_of_multiple multiple]
  refine ⟨perm.length_eq.trans formattedAs.length, ?_, ?_⟩
  · intro measurement member
    exact formattedAs.numbers measurement (perm.mem_iff.mp member)
  · intro metric member
    rw [(perm.filter _).length_eq]
    apply length_filter_name distinct
    rw [formattedAs.names]
    rcases formattedAs.matching.covering with ⟨single, _⟩ | covered
    · rw [namesLength, formattedAs.length] at single
      omega
    · exact List.mem_map.mpr ⟨some metric.name, covered metric member, rfl⟩

/-- With a single metric, the single value as it is stored is complete. -/
theorem ValuesFormatted.complete_single {names : List (Option String)} {data : ObservationData}
    (formattedAs : ValuesFormatted experiment names data.values) (succeeded : data.reportedFailure = false)
    (single : experiment.hasMultipleMetrics = false) :
    MeasurementsComplete experiment (data.getAllMeasurements experiment) := by
  have oneMetric : experiment.allMetrics.length = 1 := by
    have nonempty := List.length_pos_of_ne_nil experiment.allMetrics_ne_nil
    have notSeveral : ¬1 < experiment.allMetrics.length := by
      simpa [MetricsExperiment.hasMultipleMetrics] using single
    omega
  rcases List.length_eq_one_iff.mp oneMetric with ⟨metric, metricsAre⟩
  rcases List.length_eq_one_iff.mp (formattedAs.length.trans oneMetric) with ⟨value, valuesAre⟩
  have sorted : data.sortedMeasurements = [value] := by
    simp [ObservationData.sortedMeasurements, succeeded, valuesAre]
  have number : value.value.isSome := formattedAs.numbers value (by rw [valuesAre]; exact List.mem_singleton_self _)
  have measured : data.getAllMeasurements experiment = [{ value with name := metric.name }] := by
    rw [ObservationData.getAllMeasurements, sorted, single, metricsAre]
    by_cases hasName : metric.hasName
    · simp [hasName]
    · -- an unnamed metric takes an unnamed value only
      have unnamed : metric.name = "" := by simpa [ExperimentMetric.hasName] using hasName
      have valueName : value.name = "" := by
        have namesAre := formattedAs.names
        rw [valuesAre, List.map_singleton] at namesAre
        rcases List.map_eq_singleton_iff.mp namesAre.symm with ⟨name, namesSingle, sameName⟩
        rw [← sameName]
        rcases formattedAs.matching.covering with ⟨_, allEmpty⟩ | covered
        · exact allEmpty name (by rw [namesSingle]; exact List.mem_singleton_self _)
        · have isName := covered metric (by rw [metricsAre]; exact List.mem_singleton_self _)
          rw [namesSingle, List.mem_singleton, unnamed] at isName
          rw [← isName]
          rfl
      simp [hasName, unnamed, ← valueName]
  rw [measured]
  refine ⟨by rw [metricsAre]; rfl, ?_, ?_⟩
  · intro measurement member
    rw [List.mem_singleton.mp member]
    exact number
  · intro other member
    rw [metricsAre, List.mem_singleton] at member
    rw [member]
    simp

/-- Formatted values of a success are well formed. -/
theorem ValuesFormatted.wellFormed {names : List (Option String)} {data : ObservationData}
    (formattedAs : ValuesFormatted experiment names data.values) (succeeded : data.reportedFailure = false) :
    WellFormed experiment data := by
  apply wellFormed_of_succeeded succeeded
  cases multiple : experiment.hasMultipleMetrics with
  | true => exact formattedAs.complete_multiple succeeded multiple
  | false => exact formattedAs.complete_single succeeded multiple

end Formatted

/-! ### One request -/

section Requests

variable {sections : ObservationSections} {experiment : MetricsExperiment}

theorem clear_wellFormed (data : ObservationData) :
    WellFormed experiment { data with reportedFailure := true, values := data.values.map (·.clear) } := by
  apply wellFormed_of_failed rfl
  intro value member
  rcases List.mem_map.mp member with ⟨old, _, rfl⟩
  rfl

/-- The handlers of suggestions, assignments and tasks leave the measurements and the deleted flag alone. -/
def SameMeasurements (data other : ObservationData) : Prop :=
  other.values = data.values ∧ other.reportedFailure = data.reportedFailure ∧ other.deleted = data.deleted

theorem setObservationSuggestion_ok {data : ObservationData} {suggestionJson : ℤ} {result : Observation}
    (accepted : setObservationSuggestion sections experiment data suggestionJson = .ok result) :
    SameMeasurements data result.data := by
  unfold setObservationSuggestion at accepted
  split at accepted
  · cases accepted
  · rw [pure_eq_ok] at accepted
    rw [← accepted]
    exact ⟨rfl, rfl, rfl⟩

theorem setObservationAssignmentsMap_ok {data result : ObservationData} {json : JsonObject}
    (accepted : setObservationAssignmentsMap sections data json = .ok result) : SameMeasurements data result := by
  simp only [setObservationAssignmentsMap, bind_eq_ok, pure_eq_ok] at accepted
  rcases accepted with ⟨_, _, _, _, _, _, rfl⟩
  exact ⟨rfl, rfl, rfl⟩

theorem setObservationDataTaskFromJson_ok {data result : ObservationData} {json : JsonObject}
    (accepted : setObservationDataTaskFromJson experiment data json = .ok result) : SameMeasurements data result := by
  simp only [setObservationDataTaskFromJson, bind_eq_ok] at accepted
  rcases accepted with ⟨task, _, matched⟩
  cases task with
  | none =>
      rw [pure_eq_ok] at matched
      rw [← matched]
      exact ⟨rfl, rfl, rfl⟩
  | some task =>
      rw [pure_eq_ok] at matched
      rw [← matched]
      exact ⟨rfl, rfl, rfl⟩

theorem setTaskOfCreate_ok {data result : ObservationData} {json : JsonObject}
    (accepted : setTaskOfCreate experiment data json = .ok result) : SameMeasurements data result := by
  unfold setTaskOfCreate at accepted
  split at accepted
  · simp only [bind_eq_ok] at accepted
    rcases accepted with ⟨_, _, set⟩
    exact setObservationDataTaskFromJson_ok set
  · rw [pure_eq_ok] at accepted
    rw [← accepted]
    exact ⟨rfl, rfl, rfl⟩

/-- Having the same measurements is transitive. -/
theorem SameMeasurements.trans {first second third : ObservationData} (early : SameMeasurements first second)
    (late : SameMeasurements second third) : SameMeasurements first third :=
  ⟨late.1.trans early.1, late.2.1.trans early.2.1, late.2.2.trans early.2.2⟩

theorem setObservationDataAssignmentsTask_ok {data : ObservationData} {observation result : Observation}
    {json : JsonObject}
    (accepted : setObservationDataAssignmentsTaskFromJson sections experiment data observation json = .ok result) :
    SameMeasurements data result.data := by
  simp only [setObservationDataAssignmentsTaskFromJson, bind_eq_ok] at accepted
  rcases accepted with ⟨assignmentsJson, _, suggestionJson, _, matched⟩
  cases suggestionJson with
  | some suggestion =>
      cases assignmentsJson with
      | some assignments => cases matched
      | none =>
          simp only [bind_eq_ok] at matched
          rcases matched with ⟨_, _, set⟩
          exact setObservationSuggestion_ok set
  | none =>
      cases assignmentsJson with
      | none => cases matched
      | some assignments =>
          simp only [bind_eq_ok, pure_eq_ok] at matched
          rcases matched with ⟨assigned, assignedOk, tasked, taskedOk, rfl⟩
          exact (setObservationAssignmentsMap_ok assignedOk).trans (setTaskOfCreate_ok taskedOk)

theorem updateAssignments_ok {data : ObservationData} {observation result : Observation} {json : JsonObject}
    {assignmentsJson : Option JsonObject}
    (accepted : updateAssignments sections data observation json assignmentsJson = .ok result) :
    SameMeasurements data result.data := by
  unfold updateAssignments at accepted
  split at accepted
  · simp only [bind_eq_ok, pure_eq_ok] at accepted
    rcases accepted with ⟨assigned, assignedOk, rfl⟩
    exact setObservationAssignmentsMap_ok assignedOk
  · rw [pure_eq_ok] at accepted
    rw [← accepted]
    exact ⟨rfl, rfl, rfl⟩

theorem updateTask_ok {observation result : Observation} {json : JsonObject}
    (accepted : updateTask experiment observation json = .ok result) :
    SameMeasurements observation.data result.data := by
  unfold updateTask at accepted
  split at accepted
  · simp only [bind_eq_ok, pure_eq_ok] at accepted
    rcases accepted with ⟨tasked, taskedOk, rfl⟩
    exact setObservationDataTaskFromJson_ok taskedOk
  · rw [pure_eq_ok] at accepted
    rw [← accepted]
    exact ⟨rfl, rfl, rfl⟩

theorem updateObservationDataAssignmentsTask_ok {data : ObservationData} {observation result : Observation}
    {json : JsonObject}
    (accepted : updateObservationDataAssignmentsTaskFromJson sections experiment data observation json = .ok result) :
    SameMeasurements data result.data := by
  simp only [updateObservationDataAssignmentsTaskFromJson, bind_eq_ok] at accepted
  rcases accepted with ⟨assignmentsJson, _, suggestionJson, _, _, _, _, _, matched⟩
  cases suggestionJson with
  | some suggestion =>
      simp only at matched
      split at matched
      · exact setObservationSuggestion_ok matched
      · rw [pure_eq_ok] at matched
        rw [← matched]
        exact ⟨rfl, rfl, rfl⟩
  | none =>
      simp only [bind_eq_ok] at matched
      rcases matched with ⟨assigned, assignedOk, tasked⟩
      exact (updateAssignments_ok assignedOk).trans (updateTask_ok tasked)

/-- Every accepted create stores a well-formed observation. -/
theorem createObservation_wellFormed {json : JsonObject} {observation : Observation}
    (accepted : createObservation sections experiment json = .ok observation) :
    WellFormed experiment observation.data := by
  simp only [createObservation, observationFromJson, bind_eq_ok] at accepted
  rcases accepted with ⟨_, checked, failed, failedRead, values, valuesRead, data, dataSet, _, _, assigned⟩
  rcases setObservationDataAssignmentsTask_ok assigned with ⟨sameValues, sameFailure, _⟩
  rw [wellFormed_congr sameValues sameFailure]
  simp only [validateObservationJsonDictForCreate, bind_eq_ok, raiseIf_eq_ok] at checked
  rcases checked with ⟨-, -, failedChecked, failedCheckedRead, valuesChecked, valuesCheckedRead, -, -, -, -, -, -,
    someValues⟩
  obtain rfl : failed = failedChecked := Except.ok.inj (failedRead.symm.trans failedCheckedRead)
  obtain rfl : values = valuesChecked := Except.ok.inj (valuesRead.symm.trans valuesCheckedRead)
  have notKept : failedOrKept failed values {} = failed := by simp [failedOrKept]
  rw [notKept] at dataSet
  unfold createObservationData at dataSet
  split at dataSet
  · rw [pure_eq_ok] at dataSet
    rw [← dataSet]
    exact wellFormed_of_failed rfl (by simp)
  · rename_i notFailed
    exact absurd ⟨notFailed, rfl⟩ someValues
  · simp only [bind_eq_ok, pure_eq_ok] at dataSet
    rcases dataSet with ⟨formatted, formattedOk, rfl⟩
    exact (getFormattedValues_ok formattedOk).wellFormed rfl

theorem createObservationData_deleted {data result : ObservationData} {values : Option (List JsonObject)}
    {failed : Option Bool} (accepted : createObservationData data values experiment failed = .ok result) :
    result.deleted = data.deleted := by
  unfold createObservationData at accepted
  split at accepted
  · rw [pure_eq_ok] at accepted
    rw [← accepted]
  · rw [pure_eq_ok] at accepted
    rw [← accepted]
  · simp only [bind_eq_ok, pure_eq_ok] at accepted
    rcases accepted with ⟨_, _, rfl⟩
    rfl

/-- A new observation is not deleted. -/
theorem createObservation_deleted {json : JsonObject} {observation : Observation}
    (accepted : createObservation sections experiment json = .ok observation) :
    observation.data.deleted = false := by
  simp only [createObservation, observationFromJson, bind_eq_ok] at accepted
  rcases accepted with ⟨_, _, _, _, _, _, data, dataSet, _, _, assigned⟩
  rcases setObservationDataAssignmentsTask_ok assigned with ⟨_, _, sameDeleted⟩
  exact sameDeleted.trans (createObservationData_deleted dataSet)

/-- The update says that a failed observation of an experiment with multiple metrics has not failed, and
    does not mention values. -/
def UnfailsWithoutValues (experiment : MetricsExperiment) (observation : Observation) (json : JsonObject) :
    Prop :=
  experiment.hasMultipleMetrics = true ∧ observation.data.reportedFailure = true ∧
    ValidationType.boolean.read (json.get "failed") = some false ∧ json.hasKey "values" = false

/-- What the data of an accepted update is made of. -/
theorem updateObservationData_ok {data result : ObservationData} {values : Option (List JsonObject)}
    {failed : Option Bool} (accepted : updateObservationData data values experiment failed = .ok result) :
    (failed = some true ∧ WellFormed experiment result) ∨
      (failed ≠ some true ∧ values = none ∧ result = { data with reportedFailure := false }) ∨
      (failed ≠ some true ∧ values ≠ none ∧ WellFormed experiment result) := by
  unfold updateObservationData at accepted
  split at accepted
  · rw [pure_eq_ok] at accepted
    rw [← accepted]
    exact .inl ⟨rfl, clear_wellFormed data⟩
  · rename_i notFailed
    rw [pure_eq_ok] at accepted
    exact .inr (.inl ⟨notFailed, rfl, accepted.symm⟩)
  · rename_i given notFailed
    simp only [bind_eq_ok, pure_eq_ok] at accepted
    rcases accepted with ⟨formatted, formattedOk, rfl⟩
    exact .inr (.inr ⟨notFailed, by simp, (getFormattedValues_ok formattedOk).wellFormed rfl⟩)

/-- A failed observation that is only marked as not failed has measurements without numbers. -/
theorem not_wellFormed_of_unmarked {data : ObservationData} (noNumbers : ∀ value ∈ data.values, value.value = none) :
    ¬WellFormed experiment { data with reportedFailure := false } := by
  intro wellFormed
  rw [WellFormed, if_neg (by simp)] at wellFormed
  have noMeasured : ∀ measurement ∈
      ObservationData.getAllMeasurements { data with reportedFailure := false } experiment,
      measurement.value = none := by
    have sorted : ∀ measurement ∈ ObservationData.sortedMeasurements { data with reportedFailure := false },
        measurement.value = none := by
      intro measurement member
      by_cases empty : data.values = []
      · simp [ObservationData.sortedMeasurements, empty] at member
        rw [member]
      · have perm : (ObservationData.sortedMeasurements { data with reportedFailure := false }).Perm data.values :=
          ObservationData.sortedMeasurements_perm rfl empty
        exact noNumbers measurement (perm.mem_iff.mp member)
    intro measurement member
    unfold ObservationData.getAllMeasurements at member
    split at member
    · rename_i only metric rest isOnly _ _
      have onlyNone := sorted only (by rw [isOnly]; exact List.mem_singleton_self _)
      split at member
      · rw [List.mem_singleton.mp member]
        exact onlyNone
      · rw [List.mem_singleton.mp member]
        exact onlyNone
    · exact sorted measurement member
  have measured : 0 < (ObservationData.getAllMeasurements { data with reportedFailure := false }
      experiment).length := by
    rw [wellFormed.length]
    exact List.length_pos_of_ne_nil experiment.allMetrics_ne_nil
  rcases List.exists_mem_of_length_pos measured with ⟨measurement, member⟩
  have hasNumber := wellFormed.numbers measurement member
  rw [noMeasured measurement member] at hasNumber
  cases hasNumber

/-- The schema leaves no `value` in a request. -/
theorem not_hasKey_value {json : JsonObject} (accepted : validateObservationSchema json = .ok ()) :
    json.hasKey "value" = false := by
  simp only [validateObservationSchema, raiseIf_eq_ok, Bool.not_eq_false] at accepted
  by_contra hasKey
  rw [Bool.not_eq_false, JsonObject.hasKey, Option.isSome_iff_exists] at hasKey
  rcases hasKey with ⟨value, found⟩
  rcases List.lookup_eq_some_iff.mp found with ⟨front, back, rfl, _⟩
  have member := List.all_eq_true.mp accepted ("value", value) (by simp)
  simp [memberAccepted] at member

/-- A failed observation passes the checks without values only by the empty measurements it has. -/
theorem unfails_of_checked {observation : Observation} {json : JsonObject}
    (schema : validateObservationSchema json = .ok ())
    (checked : checkFailedAndValues experiment json observation = .ok ())
    (wasFailed : observation.data.reportedFailure = true)
    (failed : ValidationType.boolean.read (json.get "failed") = some false)
    (noValues : json.isPresent "values" = false) : UnfailsWithoutValues experiment observation json := by
  have hasFailed : json.hasKey "failed" = true := by
    by_contra missing
    rw [JsonObject.get_eq_null_of_not_hasKey (by simpa using missing)] at failed
    cases failed
  have failedIs : failedOfUpdate json observation = some false := by
    rw [failedOfUpdate, if_pos hasFailed, failed]
  unfold checkFailedAndValues at checked
  split at checked
  · rename_i multiple
    simp only [bind_eq_ok, raiseIf_eq_ok, failedIs] at checked
    rcases checked with ⟨_, _, given⟩
    refine ⟨multiple, wasFailed, failed, ?_⟩
    by_contra mentioned
    rw [Bool.not_eq_false] at mentioned
    apply given
    simp [measurementsGiven, mentioned, noValues]
  · simp only [bind_eq_ok, raiseIf_eq_ok, failedIs] at checked
    rcases checked with ⟨_, _, given⟩
    exfalso
    apply given
    have noMeasured : ((experiment.allMetrics.head?).bind fun metric =>
        observation.data.metricValue experiment metric.name).isSome = false := by
      simp [ObservationData.metricValue, ObservationData.getAllMeasurements_of_failure wasFailed]
    refine ⟨?_, by simp⟩
    rw [valueGiven, not_hasKey_value schema, noMeasured, noValues]
    simp

/-- One accepted update keeps an observation well formed exactly if it is not such an update. -/
theorem updateObservation_wellFormed_iff {observation result : Observation} {json : JsonObject}
    (good : WellFormed experiment observation.data)
    (accepted : updateObservation sections experiment observation json = .ok result) :
    WellFormed experiment result.data ↔ ¬UnfailsWithoutValues experiment observation json := by
  simp only [updateObservation, updateObservationChecking, observationFromJson, bind_eq_ok] at accepted
  rcases accepted with ⟨_, schema, _, _, _, checked, _, _, _, _, failed, failedRead, values, valuesRead, data, dataSet,
    _, _, assigned⟩
  rcases updateObservationDataAssignmentsTask_ok assigned with ⟨sameValues, sameFailure, _⟩
  rw [wellFormed_congr sameValues sameFailure]
  have failedIs := getOptWithValidation_eq_read rfl failedRead
  rcases updateObservationData_ok dataSet with ⟨keptFailed, wellFormed⟩ | ⟨notKept, noValues, dataIs⟩ |
    ⟨_, someValues, wellFormed⟩
  · refine iff_of_true wellFormed ?_
    rintro ⟨_, _, notFailed, _⟩
    rw [failedIs] at notFailed
    simp [failedOrKept, notFailed] at keptFailed
  · subst noValues
    have absent := isPresent_of_getOptWithValidation valuesRead
    cases wasFailed : observation.data.reportedFailure with
    | false =>
        have same : data = observation.data := by
          rw [dataIs, ← wasFailed]
        rw [same]
        refine iff_of_true good ?_
        rintro ⟨_, failedBefore, _, _⟩
        rw [wasFailed] at failedBefore
        cases failedBefore
    | true =>
        rw [WellFormed, if_pos wasFailed] at good
        have notFailed : failed = some false := by
          cases failed with
          | none => simp [failedOrKept, wasFailed] at notKept
          | some value =>
              cases value with
              | false => rfl
              | true => simp [failedOrKept] at notKept
        rw [dataIs]
        refine iff_of_false (not_wellFormed_of_unmarked good) (not_not.mpr ?_)
        exact unfails_of_checked schema checked wasFailed (failedIs.trans notFailed) absent
  · refine iff_of_true wellFormed ?_
    rintro ⟨_, _, _, notMentioned⟩
    rw [readValues, getOptWithValidation_of_not_hasKey notMentioned] at valuesRead
    exact someValues (Except.ok.inj valuesRead).symm

/-- No objection to `failed` and `values`. -/
def noCheck (_ : MetricsExperiment) (_ : JsonObject) (_ : Observation) : Except ValidationError Unit := pure ()

/-- An update that mentions neither `failed` nor `values` is accepted if nothing else is wrong with it. -/
def AcceptsPlainUpdates (sections : ObservationSections) (experiment : MetricsExperiment)
    (observation : Observation) : Prop :=
  ∀ json result, json.hasKey "failed" = false → json.hasKey "values" = false →
    updateObservationChecking sections experiment noCheck observation json = .ok result →
      updateObservation sections experiment observation json = .ok result

/-- With a single metric, the number of a well-formed observation is read under the name of the metric. -/
theorem metricValue_isSome {observation : Observation} {metric : ExperimentMetric}
    (good : WellFormed experiment observation.data) (succeeded : observation.data.reportedFailure = false)
    (member : metric ∈ experiment.allMetrics) :
    (observation.data.metricValue experiment metric.name).isSome := by
  rw [WellFormed, if_neg (by simp [succeeded])] at good
  unfold ObservationData.metricValue
  cases found : (observation.data.getAllMeasurements experiment).find? fun measurement =>
      measurement.name = metric.name with
  | none =>
      have one := good.one metric member
      rw [List.find?_eq_none] at found
      rw [List.filter_eq_nil_iff.mpr found] at one
      cases one
  | some measurement => exact good.numbers measurement (List.mem_of_find?_eq_some found)

/-- The checks have nothing against a plain update, except of a failed observation with multiple metrics. -/
theorem checkFailedAndValues_plain {observation : Observation} {json : JsonObject}
    (good : WellFormed experiment observation.data) (noFailed : json.hasKey "failed" = false)
    (noValues : json.hasKey "values" = false) (noValue : json.hasKey "value" = false) :
    checkFailedAndValues experiment json observation = .ok () ↔
      ¬(experiment.hasMultipleMetrics = true ∧ observation.data.reportedFailure = true) := by
  have failedIs : failedOfUpdate json observation = some observation.data.reportedFailure := by
    simp [failedOfUpdate, noFailed]
  unfold checkFailedAndValues
  rw [failedIs]
  cases multiple : experiment.hasMultipleMetrics with
  | true => simp [measurementsGiven, noValues]
  | false =>
      have givenIff : valueGiven experiment json observation = !observation.data.reportedFailure := by
        simp only [valueGiven, noValues, noValue]
        rcases List.exists_cons_of_ne_nil experiment.allMetrics_ne_nil with ⟨metric, rest, metricsAre⟩
        cases wasFailed : observation.data.reportedFailure with
        | true =>
            simp [ObservationData.metricValue, ObservationData.getAllMeasurements_of_failure wasFailed]
        | false =>
            have number := metricValue_isSome good wasFailed
              (by rw [metricsAre]; exact List.mem_cons_self : metric ∈ experiment.allMetrics)
            simpa [metricsAre] using number
      simp [givenIff]

/-- The empty update has nothing wrong with it. -/
theorem updateObservationChecking_empty (sections : ObservationSections) (experiment : MetricsExperiment)
    (observation : Observation) :
    ∃ result, updateObservationChecking sections experiment noCheck observation [] = .ok result := by
  have differ : (observation.processedSuggestionId.isSome = observation.processedSuggestionId.isNone) ↔ False := by
    cases observation.processedSuggestionId <;> simp
  have missing : ∀ key, JsonObject.hasKey [] key = false := fun _ => rfl
  have dataSet : ∃ data, updateObservationData observation.data none experiment
      (failedOrKept none none observation) = .ok data := by
    unfold updateObservationData
    split
    · exact ⟨_, rfl⟩
    · exact ⟨_, rfl⟩
    · rename_i noValues _
      cases noValues
  rcases dataSet with ⟨data, dataSet⟩
  refine ⟨{ observation with data := data }, ?_⟩
  simp only [updateObservationChecking, observationFromJson, bind_eq_ok]
  refine ⟨(), rfl, (), ?_, (), rfl, (), rfl, none, rfl, none, rfl, none, rfl, data, dataSet, (), rfl, ?_⟩
  · simp [checkSuggestionOrAssignments, missing, differ]
  · simp only [updateObservationDataAssignmentsTaskFromJson, bind_eq_ok]
    refine ⟨none, rfl, none, rfl, (), rfl, (), ?_, ?_⟩
    · cases multitask : experiment.isMultitask <;> simp [checkTaskUpdate, missing, multitask, raiseIf]
    · simp [updateAssignments, updateTask, missing, pure, Except.pure, bind, Except.bind]

/-- Which observations accept every plain update. -/
theorem acceptsPlainUpdates_iff {observation : Observation} (good : WellFormed experiment observation.data) :
    AcceptsPlainUpdates sections experiment observation ↔
      ¬(experiment.hasMultipleMetrics = true ∧ observation.data.reportedFailure = true) := by
  constructor
  · intro accepts stuck
    rcases updateObservationChecking_empty sections experiment observation with ⟨result, unchecked⟩
    have accepted := accepts [] result rfl rfl unchecked
    simp only [updateObservation, updateObservationChecking, bind_eq_ok] at accepted
    rcases accepted with ⟨_, _, _, _, _, checked, _⟩
    exact (checkFailedAndValues_plain good rfl rfl rfl).mp checked stuck
  · intro fine json result noFailed noValues unchecked
    simp only [updateObservationChecking, bind_eq_ok] at unchecked
    rcases unchecked with ⟨_, schema, _, suggestionOk, _, _, rest⟩
    have checked := (checkFailedAndValues_plain good noFailed noValues (not_hasKey_value schema)).mpr fine
    simp only [updateObservation, updateObservationChecking, bind_eq_ok]
    exact ⟨_, schema, _, suggestionOk, _, checked, rest⟩

end Requests

/-! ### All requests of an experiment -/

/-- The operation is not an update that leaves an observation without numbers. -/
def Operation.Sound (experiment : MetricsExperiment) (observations : List Observation) : Operation → Prop
  | .create _ | .createMulti _ => True
  | .update position json =>
      ∀ observation ∈ observations[position]?, ¬UnfailsWithoutValues experiment observation json

def AllWellFormed (experiment : MetricsExperiment) (observations : List Observation) : Prop :=
  ∀ observation ∈ observations, WellFormed experiment observation.data

section Runs

variable {sections : ObservationSections} {experiment : MetricsExperiment}

/-- What every created observation has, and every update keeps, all observations have after a request. -/
theorem perform_keeps {good : Observation → Prop}
    (created : ∀ json observation, createObservation sections experiment json = .ok observation → good observation)
    (updated : ∀ observation json result, good observation →
      updateObservation sections experiment observation json = .ok result → good result)
    {before after : List Observation} {operation : Operation} (allGood : ∀ observation ∈ before, good observation)
    (accepted : perform sections experiment before operation = .ok after) :
    ∀ observation ∈ after, good observation := by
  intro observation member
  cases operation with
  | create params =>
      simp only [perform, bind_eq_ok, pure_eq_ok] at accepted
      obtain ⟨json, _, new, newOk, rfl⟩ := accepted
      rcases List.mem_append.mp member with earlier | last
      · exact allGood observation earlier
      · rw [List.mem_singleton.mp last]
        exact created json new newOk
  | createMulti bodies =>
      simp only [perform, bind_eq_ok, pure_eq_ok] at accepted
      obtain ⟨new, mapped, rfl⟩ := accepted
      rcases List.mem_append.mp member with earlier | later
      · exact allGood observation earlier
      · obtain ⟨body, _, newOk⟩ := exists_item (mapM_eq_ok.mp mapped) later
        exact created body observation newOk
  | update position json =>
      cases atPosition : before[position]? with
      | none =>
          simp only [perform, atPosition] at accepted
          cases accepted
      | some stored =>
          simp only [perform, atPosition, bind_eq_ok, pure_eq_ok] at accepted
          obtain ⟨result, resultOk, rfl⟩ := accepted
          rcases List.mem_or_eq_of_mem_set member with earlier | isResult
          · exact allGood observation earlier
          · rw [isResult]
            exact updated stored json result (allGood stored (List.mem_of_getElem? atPosition)) resultOk

theorem perform_allWellFormed_iff {before after : List Observation} {operation : Operation}
    (good : AllWellFormed experiment before)
    (accepted : perform sections experiment before operation = .ok after) :
    AllWellFormed experiment after ↔ operation.Sound experiment before := by
  cases operation with
  | create params =>
      simp only [perform, bind_eq_ok, pure_eq_ok] at accepted
      rcases accepted with ⟨_, _, observation, created, rfl⟩
      refine iff_of_true ?_ trivial
      intro other member
      rcases List.mem_append.mp member with earlier | last
      · exact good other earlier
      · rw [List.mem_singleton.mp last]
        exact createObservation_wellFormed created
  | createMulti bodies =>
      simp only [perform, bind_eq_ok, pure_eq_ok] at accepted
      rcases accepted with ⟨created, mapped, rfl⟩
      refine iff_of_true ?_ trivial
      intro other member
      rcases List.mem_append.mp member with earlier | later
      · exact good other earlier
      · rcases exists_item (mapM_eq_ok.mp mapped) later with ⟨body, _, createdHere⟩
        exact createObservation_wellFormed createdHere
  | update position json =>
      cases atPosition : before[position]? with
      | none =>
          simp only [perform, atPosition] at accepted
          cases accepted
      | some observation =>
          simp only [perform, atPosition, bind_eq_ok, pure_eq_ok] at accepted
          rcases accepted with ⟨result, updated, rfl⟩
          have inRange := (List.getElem?_eq_some_iff.mp atPosition).1
          have step := updateObservation_wellFormed_iff (good observation (List.mem_of_getElem? atPosition)) updated
          simp only [Operation.Sound, atPosition, Option.mem_def, Option.some.injEq, forall_eq']
          rw [← step]
          constructor
          · intro allGood
            exact allGood result (List.mem_set inRange result)
          · intro resultGood other member
            rcases List.mem_or_eq_of_mem_set member with earlier | isResult
            · exact good other earlier
            · rw [isResult]
              exact resultGood

/-- Over all runs of creates and updates, the stored observations are well formed exactly if no update says
    of a failed observation with multiple metrics that it has not failed without giving values; and a
    well-formed observation accepts every plain update exactly if it is not a failed one with multiple
    metrics. -/
theorem observations_wellFormed_iff {operations : List (Operation × List Observation)}
    (accepted : Trace.Every (fun before operation after => perform sections experiment before operation = .ok after)
      [] operations) :
    ((∀ observations ∈ Trace.reached [] operations, AllWellFormed experiment observations) ↔
      Trace.Every (fun before operation _ => operation.Sound experiment before) [] operations) ∧
    ∀ observation, WellFormed experiment observation.data →
      (AcceptsPlainUpdates sections experiment observation ↔
        ¬(experiment.hasMultipleMetrics = true ∧ observation.data.reportedFailure = true)) := by
  have noneYet : AllWellFormed experiment [] := by
    intro observation member
    cases member
  have steps := Trace.every_iff (fun _ _ after => AllWellFormed experiment after)
    (fun before operation _ => operation.Sound experiment before) (AllWellFormed experiment)
    (fun _ _ _ good performed => perform_allWellFormed_iff good performed)
    (fun _ _ _ _ _ after => after) noneYet accepted
  rw [Trace.every_state_iff] at steps
  refine ⟨?_, fun observation good => acceptsPlainUpdates_iff good⟩
  rw [← steps, Trace.reached, List.forall_mem_cons]
  exact and_iff_right noneYet

end Runs

/-! ### Two runs with two metrics -/

/-- Sections that accept everything and know no suggestion. -/
def permissiveObservationSections : ObservationSections where
  findSuggestion _ := none
  assignmentsFromJson _ := pure [("x", 0)]
  validateClientProvidedData _ := pure ()

def accuracyAndLoss : MetricsExperiment := { metrics := [{ name := "loss" }, { name := "accuracy" }] }

def failedRequest : JsonObject := [("failed", .boolean true), ("assignments", .object [("x", .number 0)])]

def failedObservation : Observation := { data := { reportedFailure := true, assignmentsMap := [("x", 0)] } }

def measured (name : String) (value : ℚ) : Json := .object [("name", .string name), ("value", .number value)]

def recovery : List (Operation × List Observation) :=
  [(.create failedRequest, [failedObservation]),
    (.update 0 [("failed", .boolean false), ("values", .array [measured "loss" 1, measured "accuracy" 2])],
      [{ data := {
          values := [{ name := "loss", value := some 1 }, { name := "accuracy", value := some 2 }]
          assignmentsMap := [("x", 0)] } }])]

/-- A run that reports a failure, and then the values of both metrics after all. -/
theorem observations_wellFormed_recovered :
    Trace.Every (fun before operation after =>
        perform permissiveObservationSections accuracyAndLoss before operation = .ok after) [] recovery ∧
      ∀ observations ∈ Trace.reached [] recovery, AllWellFormed accuracyAndLoss observations := by
  have accepted : Trace.Every (fun before operation after =>
      perform permissiveObservationSections accuracyAndLoss before operation = .ok after) [] recovery := by
    refine ⟨?_, ?_, trivial⟩
    · decide +kernel
    · decide +kernel
  refine ⟨accepted, (observations_wellFormed_iff accepted).1.mpr ?_⟩
  refine ⟨trivial, ?_, trivial⟩
  rintro observation - ⟨_, _, _, noValues⟩
  exact absurd noValues (by decide)

/-- The failed observation is taken back without values: it has not failed, and has no numbers. The plain
    update of the failed observation is refused. -/
theorem observations_not_wellFormed :
    (∃ after, Trace.Every
        (fun before operation after =>
          perform permissiveObservationSections accuracyAndLoss before operation = .ok after)
        [] [(.create failedRequest, [failedObservation]), (.update 0 [("failed", .boolean false)], after)] ∧
      ¬AllWellFormed accuracyAndLoss after) ∧
    WellFormed accuracyAndLoss failedObservation.data ∧
      ¬AcceptsPlainUpdates permissiveObservationSections accuracyAndLoss failedObservation := by
  have stored : WellFormed accuracyAndLoss failedObservation.data :=
    wellFormed_of_failed rfl (by decide)
  refine ⟨⟨[{ data := { assignmentsMap := [("x", 0)] } }], ⟨?_, ?_, trivial⟩, ?_⟩, stored, ?_⟩
  · decide +kernel
  · decide +kernel
  · intro good
    have noNumbers : ∀ value ∈ failedObservation.data.values, value.value = none := by decide
    exact not_wellFormed_of_unmarked noNumbers (good _ List.mem_cons_self)
  · rw [acceptsPlainUpdates_iff stored]
    exact not_not.mpr ⟨by decide, rfl⟩

end Zigopt.Observations
