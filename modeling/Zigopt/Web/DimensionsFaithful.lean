/-
Module: Zigopt.Web.DimensionsFaithful
Layer: Web
Purpose: The dimensions represent the runs exactly if the keys of the fields lead to their values in all runs, and the
  fields that are declared numeric hold numbers: whatever is guessed about the others is right.
Main exports: RunsRepresented, KeysReachValues, DeclaredNumbers, runs_represented_iff
-/
import Zigopt.Lib.Rows
import Zigopt.Web.DimensionTypes

namespace Zigopt.Web

open TrainingRuns

/-! ### What the dimensions are to be -/

def Field.isPlottable (field : Field) : Bool := field.key ∉ removedColumnsKeys

/-- Every plottable field that some run defines has its dimension, with the values of the runs; and the types of the
    dimensions are right. The dimensions are an object, which has one at most under a key. -/
structure RunsRepresented (realm : Realm) (fields : List Field) (runs : List Value) (result : RunDimensions) :
    Prop where
  dimension : ∀ field ∈ fields, field.isPlottable = true →
    (∃ run ∈ runs, (realm.ownValue run field.parts).isDefinedAndNotNull = true) →
      ∃ dimension, result.dimensions field.key = some dimension ∧
        dimension.values = (runs.map fun run => realm.ownValue run field.parts) ∧
        dimension.count = runs.countP fun run => (realm.ownValue run field.parts).isDefinedAndNotNull
  numeric : ∀ key dimension, result.dimensions key = some dimension → dimension.valueType = .numeric →
    ∀ value ∈ dimension.values, value.isNumeric = true
  categorical : ∀ key dimension, result.dimensions key = some dimension → dimension.valueType = .categorical →
    ∃ ticktext plotlyValues, dimension.ticktext = some ticktext ∧ dimension.plotlyValues = some plotlyValues ∧
      TicksRight realm dimension ticktext plotlyValues

/-- The key of every plottable field that some run defines leads lodash to the field's own value in each run. -/
def KeysReachValues (realm : Realm) (castPath : String → List String) (fields : List Field) (runs : List Value) :
    Prop :=
  ∀ field ∈ fields, field.isPlottable = true →
    (∃ run ∈ runs, (realm.ownValue run field.parts).isDefinedAndNotNull = true) →
      ∀ run ∈ runs, realm.lodashGet castPath run field.key = realm.ownValue run field.parts

/-- What is found under the key of a plottable field that is declared numeric is a number, if it is anything. -/
def DeclaredNumbers (realm : Realm) (castPath : String → List String) (fields : List Field) (runs : List Value) :
    Prop :=
  ∀ field ∈ fields, field.isPlottable = true → getValueTypeFromField field = .numeric →
    ∀ run ∈ runs, (realm.lodashGet castPath run field.key).isNumeric = true

/-! ### All passes -/

section Whole

variable (realm : Realm) (get : Value → String → Value) (runs : List Value)

/-- The dimension of a field before its type is settled. -/
def filled (field : Field) : Dimension :=
  { createEmptyDimension field.key field.name (getValueTypeFromField field) with
    count := runs.countP fun run => (get run field.key).isDefinedAndNotNull
    values := runs.map fun run => get run field.key }

theorem fillDimensions_eq (fields : List Field) :
    fillDimensions get (createEmptyDimensionsFromDefinedFields fields) runs = fields.map (filled get runs) := by
  rw [fillDimensions, eachRun_eq_map, createEmptyDimensionsFromDefinedFields, List.map_map]
  apply List.map_congr_left
  intro field _
  rw [Function.comp_apply, fillDimension_foldl]
  simp [filled, createEmptyDimension]

theorem filled_type (field : Field) :
    (filled get runs field).valueType = getValueTypeFromField field ∧
      (filled get runs field).valueType ≠ .categorical := by
  refine ⟨rfl, ?_⟩
  change getValueTypeFromField field ≠ .categorical
  unfold getValueTypeFromField
  split
  · decide
  · cases field.type with
    | _ => decide

/-- The dimension of a field in the result. -/
def whole (field : Field) : Dimension :=
  let settled := typed get runs (filled get runs field)
  if settled.valueType = .categorical then ticked realm settled else settled

theorem whole_sameData (field : Field) : SameData (filled get runs field) (whole realm get runs field) := by
  have same := typed_sameData get runs (filled get runs field)
  unfold whole
  dsimp only
  split
  · exact same.trans ⟨rfl, rfl, rfl⟩
  · exact same

theorem whole_type (field : Field) :
    (whole realm get runs field).valueType = (typed get runs (filled get runs field)).valueType := by
  unfold whole
  dsimp only
  split
  · rfl
  · rfl

/-- The fields that get a dimension. -/
def shown (field : Field) : Bool :=
  field.isPlottable && (runs.countP fun run => (get run field.key).isDefinedAndNotNull) > 0

theorem valid_eq (fields : List Field) : filterOutUnplottableDimensions (fields.map (filled get runs)) =
    (fields.filter (shown get runs)).map (filled get runs) := by
  rw [filterOutUnplottableDimensions, List.filter_map]
  rfl

theorem fillTickVals_shown (fields : List Field) {dimensions : List Dimension}
    (permuted : dimensions.Perm ((fields.filter (shown get runs)).map fun field => typed get runs (filled get runs field))) :
    ∃ final, fillTickVals realm dimensions = .ok final ∧
      final.Perm ((fields.filter (shown get runs)).map (whole realm get runs)) := by
  have known : ∀ dimension ∈ dimensions, dimension.valueType = .categorical → ∃ values,
      dimension.categoricalValues = some values := by
    intro dimension member categorical
    obtain ⟨field, _, rfl⟩ := List.mem_map.mp (permuted.mem_iff.mp member)
    obtain ⟨values, known, _⟩ := typed_categorical get runs (filled_type get runs field).2 categorical
    exact ⟨values, known⟩
  obtain ⟨final, isFilled, isPerm⟩ := fillTickVals_perm realm known
  refine ⟨final, isFilled, isPerm.trans ?_⟩
  have changed := permuted.map fun dimension =>
    if dimension.valueType = .categorical then ticked realm dimension else dimension
  rw [List.map_map] at changed
  exact changed

end Whole

/-- The passes do not throw, whatever the fields and the runs are. -/
theorem createDimensionsFromRuns_maps (realm : Realm) (castPath : String → List String) (fields : List Field)
    (runs : List Value) : ∃ dimensions, createDimensionsFromRuns realm castPath fields runs =
      .ok ⟨dimensions, idIndexMapOf (runs.map (runId realm)), indexIdMapOf (runs.map (runId realm))⟩ := by
  have permuted := typed_perm (realm.lodashGet castPath) runs (filterOutUnplottableDimensions
    (fillDimensions (realm.lodashGet castPath) (createEmptyDimensionsFromDefinedFields fields) runs))
  rw [fillDimensions_eq, valid_eq, List.map_map] at permuted
  obtain ⟨final, isFinal, _⟩ := fillTickVals_shown realm (realm.lodashGet castPath) runs fields permuted
  exact ⟨_, by rw [createDimensionsFromRuns, fillDimensions_eq, valid_eq, isFinal]; rfl⟩

/-- The dimension under a key is that of the field of the key, if this is shown. -/
theorem createDimensionsFromRuns_ok (realm : Realm) (castPath : String → List String) (fields : List Field)
    (runs : List Value) (distinct : (fields.map Field.key).Nodup) :
    ∃ result, createDimensionsFromRuns realm castPath fields runs = .ok result ∧
      ∀ key dimension, result.dimensions key = some dimension ↔ ∃ field ∈ fields,
        shown (realm.lodashGet castPath) runs field = true ∧ field.key = key ∧
          dimension = whole realm (realm.lodashGet castPath) runs field := by
  have permuted := typed_perm (realm.lodashGet castPath) runs (filterOutUnplottableDimensions
    (fillDimensions (realm.lodashGet castPath) (createEmptyDimensionsFromDefinedFields fields) runs))
  rw [fillDimensions_eq, valid_eq, List.map_map] at permuted
  obtain ⟨final, isFinal, isPerm⟩ := fillTickVals_shown realm (realm.lodashGet castPath) runs fields permuted
  refine ⟨_, by rw [createDimensionsFromRuns, fillDimensions_eq, valid_eq, isFinal]; rfl, ?_⟩
  have keyOf : ∀ field, (whole realm (realm.lodashGet castPath) runs field).key = field.key :=
    fun field => (whole_sameData realm (realm.lodashGet castPath) runs field).key
  have keyed : Rows.Keyed Dimension.key final.reverse := by
    rw [Rows.Keyed, List.map_reverse, List.nodup_reverse, (isPerm.map Dimension.key).nodup_iff, List.map_map]
    have sameKeys : (fields.filter (shown (realm.lodashGet castPath) runs)).map
        (Dimension.key ∘ whole realm (realm.lodashGet castPath) runs) =
        (fields.filter (shown (realm.lodashGet castPath) runs)).map Field.key :=
      List.map_congr_left fun field _ => keyOf field
    rw [sameKeys]
    exact distinct.sublist (List.filter_sublist.map _)
  intro key dimension
  rw [Rows.findKey_iff keyed, List.mem_reverse, isPerm.mem_iff, List.mem_map]
  constructor
  · rintro ⟨⟨field, member, rfl⟩, isKey⟩
    rw [List.mem_filter] at member
    exact ⟨field, member.1, member.2, (keyOf field).symm.trans isKey, rfl⟩
  · rintro ⟨field, isField, isShown, isKey, rfl⟩
    exact ⟨⟨field, List.mem_filter.mpr ⟨isField, isShown⟩, rfl⟩, (keyOf field).trans isKey⟩

section Represented

variable {realm : Realm} {castPath : String → List String} {fields : List Field} {runs : List Value}

theorem typed_of_declared {get : Value → String → Value} {dimension : Dimension}
    (declared : dimension.valueType = .numeric) : (typed get runs dimension).valueType = .numeric := by
  rw [typed, categorized, numbered, declared]
  simp [makeDimensionTypeConcrete, declared]

theorem mem_whole_values {get : Value → String → Value} {field : Field} {value : Value}
    (member : value ∈ (whole realm get runs field).values) : ∃ run ∈ runs, get run field.key = value := by
  rw [(whole_sameData realm get runs field).values] at member
  exact List.mem_map.mp member

/-- The types of the dimensions are right where the declared ones are. -/
theorem numeric_right (declared : DeclaredNumbers realm castPath fields runs) {field : Field} (isField : field ∈ fields)
    (isPlottable : field.isPlottable = true)
    (numeric : (whole realm (realm.lodashGet castPath) runs field).valueType = .numeric) :
    ∀ value ∈ (whole realm (realm.lodashGet castPath) runs field).values, value.isNumeric = true := by
  intro value member
  obtain ⟨run, isRun, rfl⟩ := mem_whole_values member
  rw [whole_type] at numeric
  rcases typed_numeric _ runs numeric with isDeclared | all
  · exact declared field isField isPlottable isDeclared run isRun
  · exact all run isRun

theorem categorical_right {get : Value → String → Value} {field : Field}
    (categorical : (whole realm get runs field).valueType = .categorical) :
    ∃ ticktext plotlyValues, (whole realm get runs field).ticktext = some ticktext ∧
      (whole realm get runs field).plotlyValues = some plotlyValues ∧
        TicksRight realm (whole realm get runs field) ticktext plotlyValues := by
  rw [whole_type] at categorical
  obtain ⟨values, known, _, all⟩ := typed_categorical get runs (filled_type get runs field).2 categorical
  unfold whole
  dsimp only
  rw [if_pos categorical]
  apply ticked_right realm known
  intro value member
  rw [(typed_sameData get runs (filled get runs field)).values] at member
  obtain ⟨run, isRun, rfl⟩ := List.mem_map.mp member
  exact all run isRun

/-- The runs are represented exactly if the keys reach the values and the declared numbers are numbers. -/
theorem runs_represented_iff (distinct : (fields.map Field.key).Nodup) :
    (∃ result, createDimensionsFromRuns realm castPath fields runs = .ok result ∧
      RunsRepresented realm fields runs result) ↔
      KeysReachValues realm castPath fields runs ∧ DeclaredNumbers realm castPath fields runs := by
  obtain ⟨result, created, dimensionIs⟩ := createDimensionsFromRuns_ok realm castPath fields runs distinct
  have sameData := whole_sameData realm (realm.lodashGet castPath) runs
  constructor
  · rintro ⟨other, otherCreated, represented⟩
    obtain rfl := Except.ok.inj (created.symm.trans otherCreated)
    constructor
    · intro field isField isPlottable isDefined
      obtain ⟨dimension, found, values, _⟩ := represented.dimension field isField isPlottable isDefined
      obtain ⟨same, isSame, _, sameKey, rfl⟩ := (dimensionIs _ _).mp found
      obtain rfl := List.inj_on_of_nodup_map distinct isSame isField sameKey
      rw [(sameData same).values] at values
      exact List.map_inj_left.mp values
    · intro field isField isPlottable declared
      by_cases isShown : shown (realm.lodashGet castPath) runs field = true
      · have found := (dimensionIs field.key _).mpr ⟨field, isField, isShown, rfl, rfl⟩
        have numeric : (typed (realm.lodashGet castPath) runs (filled (realm.lodashGet castPath) runs field)).valueType =
            .numeric := typed_of_declared declared
        have numbers := represented.numeric _ _ found ((whole_type realm _ runs field).trans numeric)
        intro run isRun
        apply numbers
        rw [(sameData field).values]
        exact List.mem_map_of_mem isRun
      · intro run isRun
        have none : (runs.countP fun run => (realm.lodashGet castPath run field.key).isDefinedAndNotNull) = 0 := by
          simpa [shown, isPlottable] using isShown
        rw [List.countP_eq_zero] at none
        have missing := none run isRun
        simp only [Bool.not_eq_true] at missing
        rw [Value.isNumeric, missing, Bool.not_false, Bool.or_true]
  · rintro ⟨reach, declared⟩
    refine ⟨result, created, ?_, ?_, ?_⟩
    · intro field isField isPlottable isDefined
      have same := reach field isField isPlottable isDefined
      have isShown : shown (realm.lodashGet castPath) runs field = true := by
        obtain ⟨run, isRun, there⟩ := isDefined
        rw [shown, isPlottable, Bool.true_and, decide_eq_true_eq]
        apply List.countP_pos_iff.mpr
        exact ⟨run, isRun, by rw [same run isRun]; exact there⟩
      refine ⟨_, (dimensionIs field.key _).mpr ⟨field, isField, isShown, rfl, rfl⟩, ?_, ?_⟩
      · rw [(sameData field).values]
        exact List.map_congr_left same
      · rw [(sameData field).count]
        apply List.countP_congr
        intro run isRun
        rw [same run isRun]
    · intro key dimension found numeric
      obtain ⟨field, isField, isShown, _, rfl⟩ := (dimensionIs _ _).mp found
      rw [shown, Bool.and_eq_true] at isShown
      exact numeric_right declared isField isShown.1 numeric
    · intro key dimension found categorical
      obtain ⟨field, _, _, _, rfl⟩ := (dimensionIs _ _).mp found
      exact categorical_right categorical

end Represented

/-- A run with this metadata. -/
def realmWithMetadata (name : String) (value : Value) : Realm where
  members address := if address = 0 then [("id", .string "7"), ("metadata", .reference 1)] else [(name, value)]

/-- Two runs, of which only the first has the text and a reported value. -/
def twoRuns : Realm where
  members
    | 0 => [("id", .string "7"), ("metadata", .reference 1), ("values", .reference 2)]
    | 1 => [("source", .string "vision"), ("layers", .number 3)]
    | 2 => [("accuracy", .reference 3)]
    | 3 => [("value", .number (9 / 10))]
    | 4 => [("id", .string "8"), ("metadata", .reference 5)]
    | 5 => [("layers", .number 5)]
    | _ => []

def fieldsOfTwoRuns : List Field :=
  [⟨["metadata", "source"], "source", .string⟩, ⟨["metadata", "layers"], "layers", .unknown⟩,
    ⟨["values", "accuracy", "value"], "accuracy", .numeric⟩]

def runsOfTwoRuns : List Value := [.reference 0, .reference 4]

/-- A text, a number and a declared number of two runs, each with its dimension. -/
theorem runs_represented_twoRuns :
    ∃ result, createDimensionsFromRuns twoRuns DottedText.splitDots fieldsOfTwoRuns runsOfTwoRuns = .ok result ∧
      RunsRepresented twoRuns fieldsOfTwoRuns runsOfTwoRuns result := by
  apply (runs_represented_iff (by decide +kernel)).mpr
  constructor
  · intro field isField _ _
    revert field
    decide +kernel
  · intro field isField _ declared
    revert field
    decide +kernel

/-- The metadata `a.b` of a run are looked up under `b` in its metadata `a`, and get no dimension. -/
theorem dotted_key_not_represented : ∃ (realm : Realm) (fields : List Field) (runs : List Value),
    (fields.map Field.key).Nodup ∧
      ¬∃ result, createDimensionsFromRuns realm DottedText.splitDots fields runs = .ok result ∧
        RunsRepresented realm fields runs result := by
  refine ⟨realmWithMetadata "a.b" (.number 1), [⟨["metadata", "a.b"], "a.b", .unknown⟩], [.reference 0], by decide, ?_⟩
  rintro ⟨result, created, represented⟩
  obtain ⟨dimension, found, _⟩ := represented.dimension ⟨["metadata", "a.b"], "a.b", .unknown⟩ List.mem_cons_self
    (by decide +kernel) (by decide +kernel)
  have isResult : createDimensionsFromRuns (realmWithMetadata "a.b" (.number 1)) DottedText.splitDots
      [⟨["metadata", "a.b"], "a.b", .unknown⟩] [.reference 0] = .ok {
        dimensions := fun _ => none
        idIndexMap := idIndexMapOf ["7"]
        indexIdMap := indexIdMapOf ["7"] } := by
    rfl
  obtain rfl := Except.ok.inj (created.symm.trans isResult)
  cases found

end Zigopt.Web
