/-
Module: Zigopt.Suggestion.SampledPoints
Layer: Suggestion
Purpose: A point that is sampled without conditionals, whatever its sampler, has a value for every conditional and for
  every parameter: the points of random search in the domain it is handed, and those of a Latin hypercube, whichever
  intervals are left.
Main exports: experimentToSample_ok, full_of_values, Admits, valueAt_inDomain, pickValue_inDomain,
  feasible_generateRandomSuggestions, feasible_fetchLatinHypercube
-/
import Zigopt.SigoptCompute.ColumnsAgree
import Zigopt.Suggestion.Feasible

namespace Zigopt.Suggestion

open Raising Experiment Assignments SigoptCompute

theorem mapError_eq_ok {ε δ α : Type} {convert : ε → δ} {result : Except ε α} {value : α} :
    result.mapError convert = .ok value ↔ result = .ok value := by
  cases result with
  | error failure =>
      constructor
      · intro impossible
        cases impossible
      · intro impossible
        cases impossible
  | ok other => exact ⟨fun same => congrArg Except.ok (Except.ok.inj same), fun same => congrArg Except.ok (Except.ok.inj same)⟩

/-! ### The experiment that is sampled -/

/-- A domain that has a value. -/
structure Samplable (parameter : ExperimentParameter) : Prop where
  valid : ValidDomain parameter
  ends : (parameter.isCategorical || parameter.isGrid) = false → EndsMeet parameter
  positive : parameter.transformation = .log → ∀ value : ℚ, InDomain parameter value → 0 < value
  integers : parameter.isInteger = true → ∀ value ∈ parameter.gridValues, ∃ integer : ℤ, value = integer
  active : parameter.isCategorical = true → activeIndices parameter ≠ []
  categoricalGrid : parameter.isCategorical = true → ∀ value ∈ parameter.gridValues, InDomain parameter value

/-- A parameter of the experiment that is sampled: one of the experiment's but for what replaces a missing value, or a
    conditional. -/
def SampledFrom (experiment : ExperimentMeta) (parameter : ExperimentParameter) : Prop :=
  (∃ original ∈ allParameters experiment, ∃ replacement,
    parameter = { original with replacementValueIfMissing := replacement }) ∨
  ∃ conditional ∈ experiment.conditionals, parameter = convertConditionalToCategoricalParameter conditional

section Sampled

variable {experiment sampled : ExperimentMeta}

theorem unconditionedParameter_ok {parameter copy : ExperimentParameter}
    (converted : unconditionedParameter parameter = .ok copy) :
    ∃ replacement, copy = { parameter with replacementValueIfMissing := replacement } := by
  unfold unconditionedParameter at converted
  split at converted
  · cases found : lastValue parameter with
    | some value =>
        rw [found] at converted
        exact ⟨some value, (Except.ok.inj converted).symm⟩
    | none =>
        rw [found] at converted
        cases converted
  · exact ⟨parameter.replacementValueIfMissing, (Except.ok.inj converted).symm⟩

/-- The copies that are active have the names of the parameters that are. -/
theorem active_names {parameters copies : List ExperimentParameter}
    (converted : List.Forall₂ (fun parameter copy => unconditionedParameter parameter = .ok copy) parameters copies) :
    (copies.filter fun parameter => !parameter.deleted).map (·.name) =
      (parameters.filter fun parameter => !parameter.deleted).map (·.name) := by
  induction converted with
  | nil => rfl
  | cons first _ inductionHypothesis =>
      obtain ⟨replacement, rfl⟩ := unconditionedParameter_ok first
      rw [List.filter_cons, List.filter_cons]
      dsimp only
      split
      · rw [List.map_cons, List.map_cons, inductionHypothesis]
      · exact inductionHypothesis

/-- What is known of the experiment that is sampled. -/
structure IsSampled (experiment sampled : ExperimentMeta) : Prop where
  sources : ∀ parameter ∈ allParameters sampled, SampledFrom experiment parameter
  parameters : ∀ parameter ∈ allParameters experiment, ∃ replacement,
    { parameter with replacementValueIfMissing := replacement } ∈ allParameters sampled
  conditionals : ∀ conditional ∈ experiment.conditionals,
    convertConditionalToCategoricalParameter conditional ∈ allParameters sampled
  names : ((allParameters sampled).map (·.name)).Nodup

theorem convert_ok (sound : Sound experiment) (converted : convertToUnconditionedExperiment experiment = .ok sampled) :
    IsSampled experiment sampled := by
  unfold convertToUnconditionedExperiment at converted
  rw [bind_eq_ok] at converted
  obtain ⟨copies, copied, isSampled⟩ := converted
  obtain rfl := Except.ok.inj isSampled
  have related := mapM_eq_ok.mp copied
  have notDeleted : ∀ conditionals : List ExperimentConditional,
      ((conditionals.map convertConditionalToCategoricalParameter).filter fun parameter => !parameter.deleted) =
        conditionals.map convertConditionalToCategoricalParameter := by
    intro conditionals
    apply List.filter_eq_self.mpr
    intro parameter isParameter
    obtain ⟨conditional, _, rfl⟩ := List.mem_map.mp isParameter
    rfl
  constructor
  · intro parameter isParameter
    obtain ⟨isStored, live⟩ := mem_allParameters.mp isParameter
    rcases List.mem_append.mp isStored with isCopy | isConverted
    · obtain ⟨original, isOriginal, converted⟩ := exists_item related isCopy
      obtain ⟨replacement, rfl⟩ := unconditionedParameter_ok converted
      exact .inl ⟨original, mem_allParameters.mpr ⟨isOriginal, live⟩, replacement, rfl⟩
    · obtain ⟨conditional, isConditional, rfl⟩ := List.mem_map.mp isConverted
      exact .inr ⟨conditional, isConditional, rfl⟩
  · intro parameter isParameter
    obtain ⟨isStored, live⟩ := mem_allParameters.mp isParameter
    obtain ⟨copy, isCopy, converted⟩ := exists_answer related isStored
    obtain ⟨replacement, rfl⟩ := unconditionedParameter_ok converted
    exact ⟨replacement, mem_allParameters.mpr ⟨List.mem_append_left _ isCopy, live⟩⟩
  · intro conditional isConditional
    exact mem_allParameters.mpr ⟨List.mem_append_right _ (List.mem_map_of_mem isConditional), rfl⟩
  · rw [allParameters, ((List.perm_insertionSort _ _).map _).nodup_iff, List.filter_append, List.map_append, notDeleted,
      active_names related, List.map_map]
    have names := sound.names
    rw [allParameters, (((List.perm_insertionSort _ _).map _).append_right _).nodup_iff] at names
    exact names

/-- The experiment that the samplers see has the parameters of the stored one, with log-scale bounds where asked. -/
theorem experimentToSample_ok (sound : Sound experiment) (isSampled : experimentToSample experiment = .ok sampled) :
    IsSampled experiment sampled := by
  unfold experimentToSample at isSampled
  split at isSampled
  · rename_i unconditional
    obtain rfl := Except.ok.inj isSampled
    constructor
    · exact fun parameter isParameter => .inl ⟨parameter, isParameter, parameter.replacementValueIfMissing, rfl⟩
    · exact fun parameter isParameter => ⟨parameter.replacementValueIfMissing, isParameter⟩
    · intro conditional isConditional
      rw [unconditional] at isConditional
      exact absurd isConditional List.not_mem_nil
    · exact sound.parameterNames
  · exact convert_ok sound (mapError_eq_ok.mp isSampled)

theorem IsSampled.samplable (isSampled : IsSampled experiment sampled) (sound : Sound experiment) :
    ∀ parameter ∈ allParameters sampled, Samplable parameter := by
  intro parameter isParameter
  rcases isSampled.sources parameter isParameter with ⟨original, isOriginal, replacement, rfl⟩ | ⟨conditional, isConditional, rfl⟩
  · have valid := sound.domains original isOriginal
    have consistent := sound.consistent original isOriginal
    have isStored := (mem_allParameters.mp isOriginal).1
    constructor
    · exact ⟨valid.categorical, valid.grid, valid.integer, valid.stored, valid.double, valid.log⟩
    · exact sound.ends original isOriginal
    · intro isLog value inDomain
      exact positive_of_inDomain valid (sound.consistent original isOriginal) isLog inDomain
    · exact sound.integerGrids original isOriginal
    · intro categorical empty
      have two := (sound.kept.twoValues original isStored).two categorical
      have isEmpty : original.activeCategoricalValues = [] := List.map_eq_nil_iff.mp empty
      rw [isEmpty] at two
      exact absurd two (by decide)
    · exact sound.categoricalGrids original isOriginal
  · have indices : (convertConditionalToCategoricalParameter conditional).activeCategoricalValues.map (·.enumIndex) =
        conditional.values.map (·.enumIndex) := by
      unfold ExperimentParameter.activeCategoricalValues convertConditionalToCategoricalParameter
      rw [List.filter_eq_self.mpr]
      · rw [List.map_map]
        rfl
      · intro value isValue
        obtain ⟨original, _, rfl⟩ := List.mem_map.mp isValue
        rfl
    obtain ⟨notEmpty, distinct⟩ := sound.conditionalValues conditional isConditional
    constructor
    · constructor
      · intro _
        rw [indices]
        exact distinct
      · exact fun _ => List.nodup_nil
      · intro impossible
        cases impossible
      · intro impossible
        cases impossible
      · intro impossible
        cases impossible
      · intro impossible
        cases impossible
    · intro impossible
      cases impossible
    · intro impossible
      cases impossible
    · exact fun _ _ impossible => absurd impossible List.not_mem_nil
    · intro _ empty
      rw [activeIndices, indices, List.map_eq_nil_iff] at empty
      exact notEmpty empty
    · exact fun _ _ impossible => absurd impossible List.not_mem_nil

/-- Values for the parameters that are sampled are values for the conditionals and the parameters. -/
theorem full_of_values (isSampled : IsSampled experiment sampled) {row : AssignmentsMap}
    (values : ∀ parameter ∈ allParameters sampled, ∃ value, row parameter.name = some value ∧ InDomain parameter value) :
    Full experiment row := by
  constructor
  · intro conditional isConditional
    obtain ⟨value, assigned, inDomain⟩ := values _ (isSampled.conditionals conditional isConditional)
    obtain ⟨category, isActive, isValue⟩ := inDomain
    obtain ⟨isCategory, _⟩ := List.mem_filter.mp isActive
    obtain ⟨original, isOriginal, rfl⟩ := List.mem_map.mp isCategory
    exact ⟨original, isOriginal, assigned.trans (congrArg some isValue)⟩
  · intro parameter isParameter
    obtain ⟨replacement, isCopy⟩ := isSampled.parameters parameter isParameter
    obtain ⟨value, assigned, inDomain⟩ := values _ isCopy
    exact ⟨value, assigned, inDomain⟩

/-- The suggestion that is made of a point with values is feasible. -/
theorem feasible_suggestionOfPoint (sound : Sound experiment) {point : AssignmentsMap} (full : Full experiment point) :
    Feasible experiment (getAssignments experiment (suggestionOfPoint experiment point)) := by
  have feasible := feasible_of_full sound full
  unfold suggestionOfPoint
  split
  · exact feasible
  · rw [feasible.read sound]
    exact feasible

end Sampled

/-! ### Points of random search -/

/-- The coordinate lies in the domain of the component. -/
def Admits (component : DomainComponent ℚ) (coordinate : ℚ) : Prop :=
  match component.varType with
  | .categorical => coordinate ∈ component.elements
  | .quantized => coordinate ∈ component.elements
  | .double => ∃ lower upper, component.elements = [lower, upper] ∧ lower ≤ coordinate ∧ coordinate ≤ upper
  | .int => (∃ lower upper, component.elements = [lower, upper] ∧ lower ≤ coordinate ∧ coordinate ≤ upper) ∧
      ∃ integer : ℤ, coordinate = integer

section Values

variable (logarithm : Logarithm ℚ) {parameter : ExperimentParameter}

theorem valueAt_integer (integral : parameter.hasLogTransformation = false) (integer : ℤ) :
    valueAt logarithm parameter (integer : ℚ) = integer := by
  unfold valueAt
  dsimp only
  rw [integral, if_neg Bool.false_ne_true, roundHalfEven_intCast, ite_self]

theorem valueAt_coordinate_eq (samplable : Samplable parameter) {value : ℚ} (inDomain : InDomain parameter value)
    (rounded : (parameter.isInteger || parameter.isCategorical) = true → ∃ integer : ℤ, value = integer) :
    valueAt logarithm parameter (coordinate logarithm parameter value) = value := by
  have unscaled : (if parameter.hasLogTransformation then logarithm.pow10 (coordinate logarithm parameter value)
      else coordinate logarithm parameter value) = value := by
    cases isLog : parameter.hasLogTransformation with
    | true =>
        rw [if_pos rfl, coordinate, if_pos isLog]
        exact logarithm.pow10_log10 _ (samplable.positive (of_decide_eq_true isLog) value inDomain)
    | false => rw [if_neg Bool.false_ne_true, coordinate, isLog, if_neg Bool.false_ne_true]
  unfold valueAt
  dsimp only
  rw [unscaled]
  split
  · rename_i isRounded
    obtain ⟨integer, rfl⟩ := rounded isRounded
    rw [roundHalfEven_intCast]
  · rfl

/-- A coordinate that the component of a parameter admits stands for a value of its domain. -/
theorem valueAt_inDomain (samplable : Samplable parameter) {coordinate : ℚ}
    (admitted : Admits (peParameterInfo logarithm true parameter) coordinate) :
    InDomain parameter (valueAt logarithm parameter coordinate) := by
  unfold peParameterInfo at admitted
  by_cases categorical : parameter.isCategorical = true
  · rw [if_pos categorical, if_pos rfl] at admitted
    obtain ⟨category, isActive, rfl⟩ := List.mem_map.mp admitted
    have inDomain : InDomain parameter (category.enumIndex : ℚ) := by
      rw [InDomain, if_pos categorical]
      exact ⟨category, isActive, rfl⟩
    have notLog : parameter.hasLogTransformation = false := by
      cases isLog : parameter.hasLogTransformation with
      | false => rfl
      | true =>
          have isDouble : parameter.paramType = .double := of_decide_eq_true (samplable.valid.log isLog).1
          have isType : parameter.paramType = .categorical := of_decide_eq_true categorical
          rw [isType] at isDouble
          cases isDouble
    have same := valueAt_integer logarithm notLog (category.enumIndex : ℤ)
    rw [Int.cast_natCast] at same
    rw [same]
    exact inDomain
  rw [if_neg categorical] at admitted
  by_cases grid : parameter.isGrid = true
  · rw [if_pos grid] at admitted
    obtain ⟨gridValue, isElement, rfl⟩ := List.mem_map.mp admitted
    have isGridValue : gridValue ∈ parameter.gridValues := by simpa using isElement
    have inDomain : InDomain parameter gridValue := by
      rw [InDomain, if_neg categorical, if_pos grid]
      exact ⟨gridValue, isGridValue, (Rat.cast_id gridValue).symm⟩
    rw [valueAt_coordinate_eq logarithm samplable inDomain]
    · exact inDomain
    · intro rounded
      rw [Bool.eq_false_of_not_eq_true categorical, Bool.or_false] at rounded
      exact samplable.integers rounded gridValue isGridValue
  rw [if_neg grid] at admitted
  have notGrid : parameter.isGrid = false := Bool.eq_false_of_not_eq_true grid
  by_cases double : parameter.isDouble = true
  · rw [if_pos double] at admitted
    obtain ⟨lower, upper, isElements, isLower, isUpper⟩ := admitted
    have isType : parameter.paramType = .double := of_decide_eq_true double
    have notRounded : ¬(parameter.isInteger || parameter.isCategorical) = true := by
      rw [ExperimentParameter.isInteger, ExperimentParameter.isCategorical, isType]
      decide
    obtain ⟨notInteger, isNumerical⟩ := Bool.or_eq_false_iff.mp (Bool.eq_false_of_not_eq_true notRounded)
    have ofType : ∀ value : ℚ, OfType parameter value := by
      intro value _ _ isInteger
      rw [notInteger] at isInteger
      cases isInteger
    rw [inDomain_numerical isNumerical notGrid (ofType _)]
    obtain ⟨rfl, rest⟩ := List.cons.inj isElements
    obtain ⟨rfl, _⟩ := List.cons.inj rest
    unfold valueAt
    rw [if_neg notRounded]
    unfold SigoptCompute.coordinate at isLower isUpper
    cases isLog : parameter.hasLogTransformation with
    | false =>
        rw [isLog, if_neg Bool.false_ne_true] at isLower isUpper
        rw [if_neg Bool.false_ne_true]
        exact ⟨isLower, isUpper⟩
    | true =>
        rw [isLog, if_pos rfl] at isLower isUpper
        rw [if_pos rfl]
        have minimum := (samplable.valid.log isLog).2 notGrid
        have maximum := minimum.trans (samplable.valid.double double notGrid)
        have lower := logarithm.strictMono_pow10.monotone isLower
        have upper := logarithm.strictMono_pow10.monotone isUpper
        rw [logarithm.pow10_log10 _ (Rat.cast_pos.mpr minimum)] at lower
        rw [logarithm.pow10_log10 _ (Rat.cast_pos.mpr maximum)] at upper
        exact ⟨lower, upper⟩
  · rw [if_neg double] at admitted
    obtain ⟨⟨lower, upper, isElements, isLower, isUpper⟩, integer, rfl⟩ := admitted
    obtain ⟨rfl, rest⟩ := List.cons.inj isElements
    obtain ⟨rfl, _⟩ := List.cons.inj rest
    have notLog : parameter.hasLogTransformation = false :=
      Bool.eq_false_of_not_eq_true fun isLog => double (samplable.valid.log isLog).1
    rw [valueAt_integer logarithm notLog, InDomain, if_neg categorical, if_neg grid]
    exact ⟨⟨isLower, isUpper⟩, fun _ => ⟨integer, rfl⟩⟩

end Values

section Random

variable {experiment : ExperimentMeta} (logarithm : Logarithm ℚ)

/-- With distinct names, every parameter is assigned the value at its coordinate. -/
theorem assignCoordinates_parameter {parameters : List ExperimentParameter} {point : List ℚ}
    {good : ℚ → ExperimentParameter → Prop} (names : (parameters.map (·.name)).Nodup)
    (admitted : List.Forall₂ good point parameters) {parameter : ExperimentParameter} (isParameter : parameter ∈ parameters) :
    ∃ coordinate, good coordinate parameter ∧
      assignCoordinates logarithm parameters point parameter.name = some (valueAt logarithm parameter coordinate) := by
  have items : assignCoordinates logarithm parameters point =
      ((point.zip parameters).map fun entry => (entry.2.name, valueAt logarithm entry.2 entry.1)).foldl setAssignment
        fun _ => none := by
    rw [assignCoordinates, List.foldl_map]
    rfl
  have sameNames : ((point.zip parameters).map fun entry => (entry.2.name, valueAt logarithm entry.2 entry.1)).map
      Prod.fst = parameters.map (·.name) := by
    rw [List.map_map]
    have second : (point.zip parameters).map Prod.snd = parameters :=
      List.map_snd_zip admitted.length_eq.symm.le
    conv_rhs => rw [← second]
    rw [List.map_map]
    rfl
  obtain ⟨coordinate, isEntry, isGood⟩ : ∃ coordinate, (coordinate, parameter) ∈ point.zip parameters ∧
      good coordinate parameter := by
    rw [List.forall₂_iff_zip] at admitted
    obtain ⟨index, isIndex, rfl⟩ := List.getElem_of_mem isParameter
    have inPoint : index < point.length := admitted.1 ▸ isIndex
    have isEntry : (point[index], parameters[index]) ∈ point.zip parameters := by
      rw [List.mem_iff_getElem]
      exact ⟨index, by rw [List.length_zip]; exact lt_min inPoint isIndex, List.getElem_zip⟩
    exact ⟨point[index], isEntry, admitted.2 isEntry⟩
  refine ⟨coordinate, isGood, ?_⟩
  rw [items]
  apply foldl_setAssignment
  · rw [sameNames]
    exact names
  · exact List.mem_map.mpr ⟨(coordinate, parameter), isEntry, rfl⟩

/-- Every random suggestion is feasible, if the points lie in the domain that random search is handed. -/
theorem feasible_generateRandomSuggestions (sound : Sound experiment) {points : List (List ℚ)} {count : ℕ}
    (inDomain : ∀ sampled, experimentToSample experiment = .ok sampled → ∀ point ∈ points,
      List.Forall₂ (fun coordinate parameter => Admits (peParameterInfo logarithm true parameter) coordinate) point
        (allParameters sampled))
    {suggestions : List AssignmentsMap}
    (generated : generateRandomSuggestions logarithm experiment points count = .ok suggestions) :
    ∀ row ∈ suggestions, Feasible experiment (getAssignments experiment row) := by
  unfold generateRandomSuggestions at generated
  rw [bind_eq_ok] at generated
  obtain ⟨sampled, isSampled, generated⟩ := generated
  split at generated
  · obtain rfl := Except.ok.inj generated
    intro row isRow
    obtain ⟨point, isPoint, rfl⟩ := List.mem_map.mp isRow
    have known := experimentToSample_ok sound isSampled
    apply feasible_suggestionOfPoint sound
    apply full_of_values known
    intro parameter isParameter
    obtain ⟨coordinate, admitted, assigned⟩ := assignCoordinates_parameter logarithm known.names
      (inDomain sampled isSampled point isPoint) isParameter
    exact ⟨_, assigned, valueAt_inDomain logarithm (known.samplable sound parameter isParameter) admitted⟩
  · cases generated

end Random

/-! ### Latin hypercubes -/

section Picking

variable (logarithm : Logarithm ℚ) {parameter : ExperimentParameter}

/-- A random value of a parameter is one of its domain. -/
theorem randomValue_inDomain (samplable : Samplable parameter) (draw : Draw ℚ) :
    ∃ value, randomValueForParameter logarithm parameter draw = .ok value ∧ InDomain parameter value := by
  unfold randomValueForParameter
  by_cases grid : parameter.isGrid = true
  · have notEmpty : parameter.gridValues ≠ [] := List.ne_nil_of_length_pos (of_decide_eq_true grid)
    obtain ⟨value, isValue, chosen⟩ := choice_mem draw notEmpty
    rw [if_pos grid, chosen]
    refine ⟨value, congrArg Except.ok (Rat.cast_id value), ?_⟩
    by_cases categorical : parameter.isCategorical = true
    · exact samplable.categoricalGrid categorical value isValue
    · rw [InDomain, if_neg categorical, if_pos grid]
      exact ⟨value, isValue, (Rat.cast_id value).symm⟩
  rw [if_neg grid]
  by_cases categorical : parameter.isCategorical = true
  · have notEmpty : (parameter.activeCategoricalValues.map fun category => (category.enumIndex : ℚ)) ≠ [] := by
      rw [ne_eq, List.map_eq_nil_iff, ← List.map_eq_nil_iff (f := (·.enumIndex))]
      exact samplable.active categorical
    obtain ⟨value, isActive, chosen⟩ := choice_mem draw notEmpty
    obtain ⟨category, isCategory, rfl⟩ := List.mem_map.mp isActive
    rw [if_pos categorical, chosen]
    refine ⟨category.enumIndex, rfl, ?_⟩
    rw [InDomain, if_pos categorical]
    exact ⟨category, isCategory, rfl⟩
  rw [if_neg categorical]
  have between : ∀ value : ℚ, parameter.bounds.minimum ≤ value ∧ value ≤ parameter.bounds.maximum →
      (parameter.isInteger = true → ∃ integer : ℤ, value = integer) → InDomain parameter value := by
    intro value isBetween integral
    rw [InDomain, if_neg categorical, if_neg grid]
    exact ⟨isBetween, integral⟩
  have notGrid : parameter.isGrid = false := Bool.eq_false_of_not_eq_true grid
  by_cases integer : parameter.isInteger = true
  · obtain ⟨minimum, maximum, isBounds, inOrder⟩ := samplable.valid.integer integer notGrid
    obtain ⟨sampled, isSampled, isLower, isUpper⟩ := randint_mem draw inOrder
    rw [if_pos integer, isBounds, Rounding.roundHalfEven_intCast, Rounding.roundHalfEven_intCast, isSampled]
    refine ⟨sampled, rfl, between _ ?_ fun _ => ⟨sampled, rfl⟩⟩
    rw [isBounds]
    exact ⟨Int.cast_le.mpr isLower, Int.cast_le.mpr isUpper⟩
  rw [if_neg integer]
  have double : parameter.isDouble = true := by
    cases isType : parameter.paramType with
    | double => exact decide_eq_true isType
    | int => exact absurd (decide_eq_true isType) integer
    | categorical => exact absurd (decide_eq_true isType) categorical
  have inOrder := samplable.valid.double double notGrid
  by_cases log : parameter.hasLogTransformation = true
  · have minimum := (samplable.valid.log log).2 notGrid
    have scaled := logarithm.log10_lt minimum inOrder
    obtain ⟨isLower, isUpper⟩ := uniform_mem draw scaled
    have lower := logarithm.strictMono_pow10.monotone isLower
    have upper := logarithm.strictMono_pow10.monotone isUpper.le
    rw [logarithm.pow10_log10 _ minimum] at lower
    rw [logarithm.pow10_log10 _ (minimum.trans inOrder)] at upper
    rw [if_pos log]
    exact ⟨_, rfl, between _ ⟨lower, upper⟩ fun impossible => absurd impossible integer⟩
  · obtain ⟨isLower, isUpper⟩ := uniform_mem draw inOrder
    rw [if_neg log]
    exact ⟨_, rfl, between _ ⟨isLower, isUpper.le⟩ fun impossible => absurd impossible integer⟩

/-- The intervals that are left are segments with values. -/
def Intact (logarithm : Logarithm ℚ) (stencil : ℕ) (parameter : ExperimentParameter) (intervals : List (Segment ℚ)) :
    Prop :=
  ∀ interval ∈ intervals, interval ∈ segmentedIntervals logarithm parameter stencil ∧
    ∃ value : ℚ, OfType parameter value ∧ value ∈ interval

/-- Whichever intervals are left, the value that is picked is one of the domain. -/
theorem pickValue_inDomain {stencil : ℕ} (positive : 0 < stencil) (samplable : Samplable parameter)
    {intervals : List (Segment ℚ)} (intact : Intact logarithm stencil parameter intervals) (first second : Draw ℚ) :
    ∃ value, pickValue logarithm parameter intervals first second = .ok value ∧ InDomain parameter value := by
  unfold pickValue
  split
  · exact randomValue_inDomain logarithm samplable first
  · rename_i areLeft
    obtain ⟨interval, isLeft, isChosen⟩ := choice_mem first areLeft
    obtain ⟨isSegment, hasValue⟩ := intact interval isLeft
    obtain ⟨value, isSampled, ofType, isIn⟩ :=
      (segmentsApart logarithm samplable.valid stencil positive).samples interval isSegment hasValue second
    refine ⟨value, ?_, inDomain_of_segment logarithm samplable.valid positive samplable.ends ofType ⟨interval, isSegment, isIn⟩⟩
    rw [isChosen]
    exact isSampled

end Picking

section LatinHypercube

variable {experiment sampled : ExperimentMeta} {logarithm : Logarithm ℚ} {stencil : ℕ}

theorem intervalsWithValues_mem {parameter : ExperimentParameter} {segments found : List (Segment ℚ)}
    (kept : intervalsWithValues parameter segments = .ok found) :
    ∀ interval ∈ found, interval ∈ segments ∧ hasValues parameter interval = .ok true := by
  induction segments generalizing found with
  | nil =>
      rw [← Except.ok.inj kept]
      exact fun _ impossible => absurd impossible List.not_mem_nil
  | cons segment rest inductionHypothesis =>
      rw [intervalsWithValues, bind_eq_ok] at kept
      obtain ⟨has, isHas, kept⟩ := kept
      rw [bind_eq_ok] at kept
      obtain ⟨others, areOthers, same⟩ := kept
      intro interval isFound
      rw [← Except.ok.inj same] at isFound
      have later : interval ∈ others → interval ∈ segment :: rest ∧ hasValues parameter interval = .ok true := by
        intro isOther
        obtain ⟨inRest, holds⟩ := inductionHypothesis areOthers interval isOther
        exact ⟨List.mem_cons_of_mem _ inRest, holds⟩
      cases has with
      | true =>
          rw [if_pos rfl] at isFound
          rcases List.mem_cons.mp isFound with rfl | isOther
          · exact ⟨List.mem_cons_self, isHas⟩
          · exact later isOther
      | false =>
          rw [if_neg Bool.false_ne_true] at isFound
          exact later isFound

/-- The intervals at first are intact. -/
theorem intact_intervalsByParameter (positive : 0 < stencil) {parameters : List ExperimentParameter}
    (names : (parameters.map (·.name)).Nodup) (samplable : ∀ parameter ∈ parameters, Samplable parameter)
    {start intervals : Intervals ℚ} (found : intervalsByParameter logarithm stencil parameters start = .ok intervals) :
    (∀ parameter ∈ parameters, Intact logarithm stencil parameter (intervals parameter.name)) ∧
      ∀ name, name ∉ parameters.map (·.name) → intervals name = start name := by
  induction parameters generalizing start with
  | nil =>
      rw [intervalsByParameter] at found
      rw [← Except.ok.inj found]
      exact ⟨fun _ impossible => absurd impossible List.not_mem_nil, fun _ _ => rfl⟩
  | cons parameter rest inductionHypothesis =>
      rw [List.map_cons, List.nodup_cons] at names
      rw [intervalsByParameter, bind_eq_ok] at found
      obtain ⟨withValues, areKept, found⟩ := found
      obtain ⟨intact, others⟩ := inductionHypothesis names.2
        (fun other isOther => samplable other (List.mem_cons_of_mem _ isOther)) found
      constructor
      · intro other isOther
        rcases List.mem_cons.mp isOther with rfl | inRest
        · rw [others _ names.1, Function.update_self]
          intro interval isInterval
          obtain ⟨isSegment, holds⟩ := intervalsWithValues_mem areKept interval (List.mem_dedup.mp isInterval)
          obtain ⟨has, isHas, exact⟩ :=
            (segmentsApart logarithm (samplable other List.mem_cons_self).valid stencil positive).hasValues interval
              isSegment
          rw [holds] at isHas
          exact ⟨isSegment, exact.mp (Except.ok.inj isHas).symm⟩
        · exact intact other inRest
      · intro name isOther
        rw [List.map_cons, List.mem_cons, not_or] at isOther
        rw [others name isOther.2, Function.update_of_ne isOther.1]

theorem pruneInterval_subset (intervals : Intervals ℚ) (item : String × ℚ) (name : String) :
    ∀ interval ∈ pruneInterval intervals item name, interval ∈ intervals name := by
  intro interval isLeft
  rw [pruneInterval_eq] at isLeft
  by_cases same : name = item.1
  · rw [same, Function.update_self] at isLeft
    rw [same]
    exact Segments.mem_of_mem_prune isLeft
  · rw [Function.update_of_ne same] at isLeft
    exact isLeft

theorem pruneIntervals_subset (rows : List (List (String × ℚ))) (intervals : Intervals ℚ) (name : String) :
    ∀ interval ∈ pruneIntervals rows intervals name, interval ∈ intervals name := by
  have items : ∀ (row : List (String × ℚ)) (left : Intervals ℚ),
      ∀ interval ∈ row.foldl pruneInterval left name, interval ∈ left name := by
    intro row
    induction row with
    | nil => exact fun _ _ isLeft => isLeft
    | cons item rest inductionHypothesis =>
        intro left interval isLeft
        exact pruneInterval_subset left item name interval (inductionHypothesis _ interval isLeft)
  unfold pruneIntervals
  induction rows generalizing intervals with
  | nil => exact fun _ isLeft => isLeft
  | cons row rest inductionHypothesis =>
      intro interval isLeft
      exact items row intervals interval (inductionHypothesis _ interval isLeft)

/-- Each parameter is given a value of its domain. -/
theorem pickAssignments_inDomain (positive : 0 < stencil) {intervals : Intervals ℚ}
    {parameters : List ExperimentParameter} (samplable : ∀ parameter ∈ parameters, Samplable parameter)
    (intact : ∀ parameter ∈ parameters, Intact logarithm stencil parameter (intervals parameter.name))
    {picks : ℕ → Pick ℚ} {items : List (String × ℚ)}
    (picked : pickAssignments logarithm intervals parameters picks = .ok items) :
    items.map Prod.fst = parameters.map (·.name) ∧
      ∀ parameter ∈ parameters, ∃ value, (parameter.name, value) ∈ items ∧ InDomain parameter value := by
  induction parameters generalizing picks items with
  | nil =>
      rw [← Except.ok.inj picked]
      exact ⟨rfl, fun _ impossible => absurd impossible List.not_mem_nil⟩
  | cons parameter rest inductionHypothesis =>
      obtain ⟨value, isPicked, inDomain⟩ := pickValue_inDomain logarithm positive (samplable parameter List.mem_cons_self)
        (intact parameter List.mem_cons_self) (picks 0).1 (picks 0).2
      rw [pickAssignments, bind_eq_ok] at picked
      obtain ⟨assignment, isAssignment, picked⟩ := picked
      obtain rfl := Except.ok.inj (isPicked.symm.trans isAssignment)
      obtain ⟨others, areOthers, same⟩ := bind_eq_ok.mp picked
      obtain rfl := Except.ok.inj same
      obtain ⟨names, values⟩ := inductionHypothesis
        (fun other isOther => samplable other (List.mem_cons_of_mem _ isOther))
        (fun other isOther => intact other (List.mem_cons_of_mem _ isOther)) areOthers
      constructor
      · rw [List.map_cons, List.map_cons, names]
      · intro other isOther
        rcases List.mem_cons.mp isOther with rfl | inRest
        · exact ⟨value, List.mem_cons_self, inDomain⟩
        · obtain ⟨own, isItem, ownInDomain⟩ := values other inRest
          exact ⟨own, List.mem_cons_of_mem _ isItem, ownInDomain⟩

/-- Items for all parameters make an assignment of all parameters. -/
theorem values_of_items (names : ((allParameters sampled).map (·.name)).Nodup) {items : List (String × ℚ)}
    (sameNames : items.map Prod.fst = (allParameters sampled).map (·.name))
    (values : ∀ parameter ∈ allParameters sampled, ∃ value, (parameter.name, value) ∈ items ∧ InDomain parameter value) :
    ∀ parameter ∈ allParameters sampled, ∃ value,
      assignmentsFromDict items parameter.name = some value ∧ InDomain parameter value := by
  intro parameter isParameter
  obtain ⟨value, isItem, inDomain⟩ := values parameter isParameter
  refine ⟨value, foldl_setAssignment ?_ isItem _, inDomain⟩
  rw [sameNames]
  exact names

/-- Every round keeps the intervals intact and gives each parameter a value of its domain. -/
theorem fetchSuggestions_inDomain (positive : 0 < stencil) (names : ((allParameters sampled).map (·.name)).Nodup)
    (samplable : ∀ parameter ∈ allParameters sampled, Samplable parameter) {limit : ℕ} {intervals : Intervals ℚ}
    (intact : ∀ parameter ∈ allParameters sampled, Intact logarithm stencil parameter (intervals parameter.name))
    {draws : ℕ → ℕ → Pick ℚ} {points : List AssignmentsMap}
    (fetched : fetchSuggestions logarithm sampled limit intervals draws = .ok points) :
    ∀ point ∈ points, ∀ parameter ∈ allParameters sampled, ∃ value,
      point parameter.name = some value ∧ InDomain parameter value := by
  induction limit generalizing intervals draws points with
  | zero =>
      rw [← Except.ok.inj fetched]
      exact fun _ impossible => absurd impossible List.not_mem_nil
  | succ limit inductionHypothesis =>
      rw [fetchSuggestions, bind_eq_ok] at fetched
      obtain ⟨items, picked, fetched⟩ := fetched
      obtain ⟨others, areOthers, same⟩ := bind_eq_ok.mp fetched
      obtain rfl := Except.ok.inj same
      obtain ⟨sameNames, values⟩ := pickAssignments_inDomain positive samplable intact picked
      intro point isPoint
      rcases List.mem_cons.mp isPoint with rfl | isOther
      · exact values_of_items names sameNames values
      · apply inductionHypothesis _ areOthers point isOther
        intro parameter isParameter interval isLeft
        exact intact parameter isParameter interval (pruneIntervals_subset _ _ _ interval isLeft)

theorem stencilLength_pos (experiment : ExperimentMeta) (parallelBandwidth : ℤ) : 0 < stencilLength experiment parallelBandwidth := by
  unfold stencilLength
  have atLeast : (4 : ℤ) ≤ max (min (max ((((allParameters experiment).filter fun parameter => parameter.isCategorical).map
      fun parameter => parameter.activeCategoricalValues.length).sum : ℤ) 1 *
        ((allParameters experiment).filter fun parameter => !parameter.isCategorical).length +
          (parallelBandwidth - 1)) (100 + parallelBandwidth - 1)) 4 := le_max_right _ _
  dsimp only
  omega

/-- Every suggestion of a Latin hypercube is feasible, whatever rows have pruned its intervals. -/
theorem feasible_fetchLatinHypercube (sound : Sound experiment) {parallelBandwidth : ℤ}
    {rows : List (List (String × ℚ))} {draws : ℕ → ℕ → Pick ℚ} {limit : ℕ} {suggestions : List AssignmentsMap}
    (fetched : fetchLatinHypercube logarithm experiment parallelBandwidth rows draws limit = .ok suggestions) :
    ∀ row ∈ suggestions, Feasible experiment (getAssignments experiment row) := by
  unfold fetchLatinHypercube at fetched
  rw [bind_eq_ok] at fetched
  obtain ⟨sampled, isSampled, fetched⟩ := fetched
  obtain ⟨points, arePoints, same⟩ := bind_eq_ok.mp fetched
  obtain rfl := Except.ok.inj same
  rw [mapError_eq_ok, latinHypercube, bind_eq_ok] at arePoints
  obtain ⟨intervals, areIntervals, arePoints⟩ := arePoints
  rw [buildIntervals, bind_eq_ok] at areIntervals
  obtain ⟨first, isFirst, pruned⟩ := areIntervals
  obtain rfl := Except.ok.inj pruned
  have known := experimentToSample_ok sound isSampled
  have samplable := known.samplable sound
  have intact := (intact_intervalsByParameter (stencilLength_pos sampled parallelBandwidth) known.names samplable isFirst).1
  intro row isRow
  obtain ⟨point, isPoint, rfl⟩ := List.mem_map.mp isRow
  apply feasible_suggestionOfPoint sound
  apply full_of_values known
  refine fetchSuggestions_inDomain (stencilLength_pos sampled parallelBandwidth) known.names samplable ?_ arePoints point isPoint
  intro parameter isParameter interval isLeft
  exact intact parameter isParameter interval (pruneIntervals_subset _ _ _ interval isLeft)

end LatinHypercube

end Zigopt.Suggestion
