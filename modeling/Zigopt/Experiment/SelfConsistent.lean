/-
Module: Zigopt.Experiment.SelfConsistent
Layer: Experiment
Purpose: Whether the definition of a parameter is consistent in itself: its bounds with its grid, its prior with both and
  with its transformation. A new parameter is. An update checks what it sends, but the prior against the stored grid
  and the stored bounds and prior against what it sends only in part.
Main exports: SelfConsistent, ParameterRevised, KeepsConsistent, setExperimentParameterFromJson_consistent,
  revisedParameter_consistent_iff
-/
import Mathlib.Order.Bounds.Basic
import Mathlib.Tactic.Linarith
import Zigopt.Experiment.TypedParameters

namespace Zigopt.Experiment

open Raising

/-- The bounds are the least and the greatest value of the grid. -/
structure SpannedBy (grid : List ℚ) (bounds : Bounds) : Prop where
  minimum : IsLeast {value | value ∈ grid} bounds.minimum
  maximum : IsGreatest {value | value ∈ grid} bounds.maximum

/-- What the handlers check of a parameter in itself: grid and bounds, prior, transformation, default. -/
structure SelfConsistent (parameter : ExperimentParameter) : Prop where
  grid : parameter.isCategorical = false → parameter.isGrid = true → SpannedBy parameter.gridValues parameter.bounds
  edge : parameter.isCategorical = false → parameter.bounds.minimum < parameter.bounds.maximum
  priorGrid : parameter.prior.isSome → parameter.isGrid = false
  priorLog : parameter.prior.isSome → parameter.transformation ≠ .log
  priorMean : ∀ mean scale, parameter.prior = some (.normal mean scale) →
    parameter.bounds.minimum ≤ mean ∧ mean ≤ parameter.bounds.maximum
  logBounds : parameter.transformation = .log → 0 < parameter.bounds.minimum
  logDefault : parameter.transformation = .log →
    ∀ value, parameter.replacementValueIfMissing = some value → 0 < value

/-! ### What a request gives -/

/-- The numbers of the grid that a request gives. -/
def requestedGrid (json : JsonObject) : List ℚ := ((ValidationType.arrayOf .number).read (json.get "grid")).getD []

/-- The numbers of the grid that a request gives, as they are stored. -/
def gridNumbers (json : JsonObject) : List ℚ := (requestedGrid json).map Binary64.round

/-- Bounds that a request gives, by its grid or as they are. -/
structure BoundsGiven (transformation : Transformation) (json : JsonObject) (bounds : Bounds) : Prop where
  edge : bounds.minimum < bounds.maximum
  log : transformation = .log → 0 < bounds.minimum
  source : (gridNumbers json ≠ [] ∧ SpannedBy (gridNumbers json) bounds ∧ json.isPresent "bounds" = false) ∨
    (gridNumbers json = [] ∧ ∃ members minimum maximum, json.get "bounds" = .object members ∧
      JsonObject.get members "min" = .number minimum ∧ JsonObject.get members "max" = .number maximum ∧
      bounds = storedBounds minimum maximum)

/-- A grid that a request gives, in another order. -/
structure GridGiven (json : JsonObject) (grid : List ℚ) : Prop where
  perm : grid.Perm (gridNumbers json)
  notEmpty : grid ≠ []

/-- A prior that a request gives. -/
structure PriorGiven (parameter : ExperimentParameter) (json : JsonObject) (prior : Prior) : Prop where
  isDouble : parameter.paramType = .double
  notLog : parameter.transformation ≠ .log
  noGrid : json.isPresent "grid" = false
  mean : ∀ mean scale, prior = .normal mean scale →
    parameter.bounds.minimum ≤ mean ∧ mean ≤ parameter.bounds.maximum

section Given

variable {parameter result : ExperimentParameter} {json : JsonObject}

theorem gridNumbers_of_not_isPresent (absent : json.isPresent "grid" = false) : gridNumbers json = [] := by
  rw [gridNumbers, requestedGrid, get_of_not_isPresent absent]
  rfl

theorem hasKey_of_isPresent {key : String} (present : json.isPresent key = true) : json.hasKey key = true := by
  by_contra missing
  rw [Bool.not_eq_true] at missing
  rw [JsonObject.isPresent, JsonObject.get_eq_null_of_not_hasKey missing] at present
  cases present

theorem number_of_read {numberType : ValidationType ℚ} (isNumber : numberType = .integer ∨ numberType = .number)
    {value : Json} {number : ℚ} (read : numberType.read value = some number) : value = .number number := by
  cases isNumber with
  | inl isInteger =>
      subst isInteger
      cases value with
      | number other =>
          change (if other.den = 1 then some other else none) = some number at read
          split at read
          · rw [Option.some.inj read]
          · cases read
      | _ => cases read
  | inr isNumber =>
      subst isNumber
      cases value with
      | number other => rw [Option.some.inj read]
      | _ => cases read

/-- A list of integers is one of numbers. -/
theorem readNumbers_of_integers {items : List Json} {grid : List ℚ}
    (read : items.mapM ValidationType.integer.read = some grid) :
    items.mapM ValidationType.number.read = some grid := by
  induction items generalizing grid with
  | nil => exact read
  | cons item items inductionHypothesis =>
      rw [List.mapM_cons, Option.bind_eq_bind, Option.bind_eq_some_iff] at read
      obtain ⟨first, readFirst, others⟩ := read
      rw [Option.bind_eq_bind, Option.bind_eq_some_iff] at others
      obtain ⟨rest, readRest, same⟩ := others
      rw [number_of_read (.inl rfl) readFirst, List.mapM_cons, inductionHypothesis readRest]
      exact same

theorem requestedGrid_of_read {numberType : ValidationType ℚ} (isNumber : numberType = .integer ∨ numberType = .number)
    {grid : List ℚ} (read : (ValidationType.arrayOf numberType).read (json.get "grid") = some grid) :
    requestedGrid json = grid := by
  rw [requestedGrid]
  cases given : json.get "grid" with
  | array items =>
      rw [given] at read
      change (items.mapM ValidationType.number.read).getD [] = grid
      cases isNumber with
      | inl isInteger =>
          subst isInteger
          rw [readNumbers_of_integers read, Option.getD_some]
      | inr isNumber =>
          subst isNumber
          rw [show items.mapM ValidationType.number.read = some grid from read, Option.getD_some]
  | _ =>
      rw [given] at read
      cases read

theorem minimumDomainEdgeLength_pos : 0 < minimumDomainEdgeLength := by
  decide +kernel

theorem checkBounds_ok {bounds : Bounds} (accepted : checkBounds parameter bounds = .ok ()) :
    bounds.minimum < bounds.maximum ∧ (parameter.transformation = .log → 0 < bounds.minimum) := by
  simp only [checkBounds, bind_eq_ok, raiseIf_eq_ok] at accepted
  obtain ⟨_, _, _, longEnough, positive⟩ := accepted
  constructor
  · by_contra notBelow
    have narrow := Binary64.round_mono (sub_nonpos.mpr (not_lt.mp notBelow))
    rw [Binary64.round_zero] at narrow
    exact longEnough (narrow.trans_lt minimumDomainEdgeLength_pos)
  · intro isLog
    by_contra notPositive
    exact positive ⟨isLog, not_lt.mp notPositive⟩

/-- Rounding keeps the order, so the stored bounds span the stored grid. -/
theorem spannedBy_stored {grid : List ℚ} {minimum maximum : ℚ} (isMinimum : grid.min? = some minimum)
    (isMaximum : grid.max? = some maximum) : SpannedBy (grid.map Binary64.round) (storedBounds minimum maximum) := by
  obtain ⟨hasMinimum, isLower⟩ := List.min?_eq_some_iff.mp isMinimum
  obtain ⟨hasMaximum, isUpper⟩ := List.max?_eq_some_iff.mp isMaximum
  constructor
  · refine ⟨List.mem_map.mpr ⟨minimum, hasMinimum, rfl⟩, ?_⟩
    intro stored isStored
    obtain ⟨value, member, rfl⟩ := List.mem_map.mp isStored
    exact Binary64.round_mono (isLower value member)
  · refine ⟨List.mem_map.mpr ⟨maximum, hasMaximum, rfl⟩, ?_⟩
    intro stored isStored
    obtain ⟨value, member, rfl⟩ := List.mem_map.mp isStored
    exact Binary64.round_mono (isUpper value member)

theorem givenBounds_ok {grid : List ℚ} {bounds : Bounds} (accepted : givenBounds parameter json grid = .ok bounds) :
    (grid ≠ [] ∧ SpannedBy (grid.map Binary64.round) bounds) ∨
      (grid = [] ∧ ∃ members minimum maximum, json.get "bounds" = .object members ∧
        JsonObject.get members "min" = .number minimum ∧ JsonObject.get members "max" = .number maximum ∧
        bounds = storedBounds minimum maximum) := by
  simp only [givenBounds, bind_eq_ok] at accepted
  obtain ⟨boundsJson, read, accepted⟩ := accepted
  split at accepted
  next minimum maximum isMinimum isMaximum =>
      rw [pure_eq_ok] at accepted
      subst accepted
      left
      refine ⟨?_, spannedBy_stored isMinimum isMaximum⟩
      intro empty
      rw [empty] at isMinimum
      cases isMinimum
  next => cases accepted
  next noRange _ =>
      right
      have isEmpty : grid = [] := by
        by_contra someGrid
        obtain ⟨minimum, isMinimum⟩ := Option.isSome_iff_exists.mp (List.isSome_min?_of_ne_nil someGrid)
        obtain ⟨maximum, isMaximum⟩ := Option.isSome_iff_exists.mp (List.isSome_max?_of_ne_nil someGrid)
        exact noRange minimum maximum isMinimum isMaximum
      simp only [bind_eq_ok, pure_eq_ok] at accepted
      obtain ⟨minimum, readMinimum, maximum, readMaximum, rfl⟩ := accepted
      have isNumber : (if parameter.isInteger then ValidationType.integer else ValidationType.number) = .integer ∨
          (if parameter.isInteger then ValidationType.integer else ValidationType.number) = .number := by
        cases parameter.isInteger with
        | true => exact .inl rfl
        | false => exact .inr rfl
      have notNull : (if parameter.isInteger then ValidationType.integer else ValidationType.number).read .null = none := by
        cases parameter.isInteger <;> rfl
      refine ⟨isEmpty, boundsJson.getD [], minimum, maximum, ?_,
        number_of_read isNumber ((getWithValidation_eq_ok notNull).mp readMinimum),
        number_of_read isNumber ((getWithValidation_eq_ok notNull).mp readMaximum), rfl⟩
      cases boundsJson with
      | none =>
          rw [Option.getD_none] at readMinimum
          cases readMinimum
      | some members =>
          have isObject := (getOptWithValidation_eq_some rfl).mp read
          cases given : json.get "bounds" with
          | object others =>
              rw [given] at isObject
              rw [Option.some.inj isObject, Option.getD_some]
          | _ =>
              rw [given] at isObject
              cases isObject

theorem boundsFromJson_numeric {bounds : Bounds} (numeric : parameter.isCategorical = false)
    (accepted : boundsFromJson parameter json = .ok bounds) : BoundsGiven parameter.transformation json bounds := by
  simp only [boundsFromJson, bind_eq_ok, raiseIf_eq_ok] at accepted
  obtain ⟨gridValues, read, _, apart, accepted⟩ := accepted
  have isGrid : gridValues.getD [] = requestedGrid json := by
    rw [requestedGrid, getOptWithValidation_eq_read rfl read]
  rw [isGrid] at apart accepted
  have taken : ∃ given, givenBounds parameter json (requestedGrid json) = .ok given ∧ checkBounds parameter given = .ok () ∧
      given = bounds := by
    cases isType : parameter.paramType with
    | categorical =>
        rw [ExperimentParameter.isCategorical, isType] at numeric
        cases numeric
    | int =>
        rw [isType] at accepted
        simp only [bind_eq_ok, pure_eq_ok] at accepted
        obtain ⟨given, isGiven, _, checked, same⟩ := accepted
        exact ⟨given, isGiven, checked, same⟩
    | double =>
        rw [isType] at accepted
        simp only [bind_eq_ok, pure_eq_ok] at accepted
        obtain ⟨given, isGiven, _, checked, same⟩ := accepted
        exact ⟨given, isGiven, checked, same⟩
  obtain ⟨given, isGiven, checked, rfl⟩ := taken
  obtain ⟨edge, log⟩ := checkBounds_ok checked
  refine ⟨edge, log, ?_⟩
  cases givenBounds_ok isGiven with
  | inl ofGrid =>
      left
      refine ⟨mt List.map_eq_nil_iff.mp ofGrid.1, ofGrid.2, ?_⟩
      by_contra present
      exact apart ⟨ofGrid.1, by simpa using present⟩
  | inr asGiven => exact .inr ⟨List.map_eq_nil_iff.mpr asGiven.1, asGiven.2⟩

theorem gridFromJson_numeric {grid : List ℚ} (numeric : parameter.isCategorical = false)
    (accepted : gridFromJson parameter json = .ok grid) : GridGiven json grid := by
  simp only [gridFromJson, bind_eq_ok, raiseIf_eq_ok, pure_eq_ok] at accepted
  obtain ⟨_, _, _, _, _, _, numbers, ofType, _, _, _, longEnough, _, _, rfl⟩ := accepted
  constructor
  · unfold gridOfType at ofType
    cases isType : parameter.paramType with
    | categorical =>
        rw [ExperimentParameter.isCategorical, isType] at numeric
        cases numeric
    | int =>
        rw [isType] at ofType
        simp only [bind_eq_ok, pure_eq_ok] at ofType
        obtain ⟨given, read, rfl⟩ := ofType
        rw [gridNumbers, requestedGrid_of_read (.inl rfl) ((getWithValidation_eq_ok rfl).mp read)]
        exact (List.perm_insertionSort _ _).map Binary64.round
    | double =>
        rw [isType] at ofType
        simp only [bind_eq_ok, pure_eq_ok] at ofType
        obtain ⟨given, read, rfl⟩ := ofType
        rw [gridNumbers, requestedGrid_of_read (.inr rfl) ((getWithValidation_eq_ok rfl).mp read)]
        exact (List.perm_insertionSort _ _).map Binary64.round
  · intro empty
    rw [List.map_eq_nil_iff.mp empty] at longEnough
    exact longEnough (by decide)

theorem givenPrior_ok {prior : Prior} (accepted : givenPrior parameter json = .ok prior) :
    PriorGiven parameter json prior := by
  simp only [givenPrior, checkPrior, bind_eq_ok, raiseIf_eq_ok, not_not] at accepted
  obtain ⟨_, ⟨_, isDouble, _, notLog, noGrid⟩, priorJson, _, name, _, accepted⟩ := accepted
  refine ⟨isDouble, notLog, by simpa using noGrid, ?_⟩
  rintro mean scale rfl
  split at accepted
  · simp only [normalPriorFromJson, bind_eq_ok, raiseIf_eq_ok, pure_eq_ok, not_or, not_lt] at accepted
    obtain ⟨_, _, _, within, _, _, _, _, same⟩ := accepted
    cases same
    exact ⟨within.2, within.1⟩
  · simp only [betaPriorFromJson, bind_eq_ok, pure_eq_ok] at accepted
    obtain ⟨_, _, _, _, _, _, same⟩ := accepted
    cases same
  · cases accepted

/-- A default value of a log-transformed parameter is checked when it is given. -/
theorem defaultValueFromJson_log {default : Option ℚ} (accepted : defaultValueFromJson parameter json = .ok default)
    (isLog : parameter.transformation = .log)
    (before : ∀ value, parameter.replacementValueIfMissing = some value → 0 < value) :
    ∀ value, default = some value → 0 < value := by
  rw [defaultValueFromJson, bind_eq_ok] at accepted
  obtain ⟨given, _, accepted⟩ := accepted
  intro value isDefault
  cases given with
  | none =>
      rw [pure_eq_ok] at accepted
      exact before value (accepted.trans isDefault)
  | some assignment =>
      simp only [givenDefaultValue, bind_eq_ok, raiseIf_eq_ok, pure_eq_ok] at accepted
      obtain ⟨_, ⟨number, _, _, positive, rfl⟩, same⟩ := accepted
      rw [isDefault, Option.some.injEq] at same
      rw [← same]
      by_contra notPositive
      exact positive ⟨isLog, not_lt.mp notPositive⟩

end Given

/-! ### A new parameter -/

/-- Where no grid is mentioned, there is none. -/
theorem maybeSetGridValues_numeric {parameter result : ExperimentParameter} {json : JsonObject} {always : Bool}
    (numeric : parameter.isCategorical = false) (accepted : maybeSetGridValues parameter json always = .ok result) :
    (json.hasKey "grid" = false ∧ result.gridValues = parameter.gridValues) ∨ GridGiven json result.gridValues := by
  unfold maybeSetGridValues at accepted
  split at accepted
  · simp only [setGridValuesFromJson, bind_eq_ok, pure_eq_ok] at accepted
    obtain ⟨grid, isGrid, rfl⟩ := accepted
    exact .inr (gridFromJson_numeric numeric isGrid)
  · next unmentioned =>
      rw [pure_eq_ok] at accepted
      subst accepted
      rw [Bool.or_eq_true, not_or, Bool.not_eq_true] at unmentioned
      exact .inl ⟨unmentioned.1, rfl⟩

theorem GridGiven.isPresent {json : JsonObject} {grid : List ℚ} (given : GridGiven json grid) :
    json.isPresent "grid" = true := by
  by_contra absent
  rw [Bool.not_eq_true] at absent
  apply given.notEmpty
  have perm := given.perm
  rw [gridNumbers_of_not_isPresent absent] at perm
  exact perm.eq_nil

theorem GridGiven.spanned {json : JsonObject} {grid : List ℚ} {transformation : Transformation} {bounds : Bounds}
    (given : GridGiven json grid) (ofRequest : BoundsGiven transformation json bounds) : SpannedBy grid bounds := by
  have sameValues : {value | value ∈ grid} = {value | value ∈ gridNumbers json} :=
    Set.ext fun value => given.perm.mem_iff
  cases ofRequest.source with
  | inl ofGrid =>
      constructor
      · rw [sameValues]
        exact ofGrid.2.1.minimum
      · rw [sameValues]
        exact ofGrid.2.1.maximum
  | inr asGiven =>
      have perm := given.perm
      rw [asGiven.1] at perm
      exact absurd perm.eq_nil given.notEmpty

theorem isGrid_iff {parameter : ExperimentParameter} : parameter.isGrid = true ↔ parameter.gridValues ≠ [] := by
  rw [ExperimentParameter.isGrid, decide_eq_true_iff, gt_iff_lt, List.length_pos_iff]

/-- The prior that a setter leaves behind: the one before, or one that the request gives. -/
theorem setPriorFromJson_given {parameter result : ExperimentParameter} {json : JsonObject}
    (accepted : setPriorFromJson parameter json = .ok result) :
    (json.isPresent "prior" = false ∧ result.prior = parameter.prior) ∨
      ∃ prior, json.isPresent "prior" = true ∧ PriorGiven parameter json prior ∧ result.prior = some prior := by
  unfold setPriorFromJson at accepted
  split at accepted
  · next present =>
      simp only [bind_eq_ok, pure_eq_ok] at accepted
      obtain ⟨prior, given, rfl⟩ := accepted
      exact .inr ⟨prior, present, givenPrior_ok given, rfl⟩
  · next absent =>
      rw [pure_eq_ok] at accepted
      exact .inl ⟨by simpa using absent, by rw [accepted]⟩

/-- A new parameter is consistent in itself. -/
theorem setExperimentParameterFromJson_consistent {json : JsonObject} {experimentType : ExperimentType}
    {conditionals : List ExperimentConditional} {result : ExperimentParameter}
    (accepted : setExperimentParameterFromJson json experimentType conditionals = .ok result) :
    SelfConsistent result := by
  have isTyped := setExperimentParameterFromJson_typed accepted
  unfold setExperimentParameterFromJson at accepted
  simp only [bind_eq_ok] at accepted
  obtain ⟨name, _, _, typed, _, transformed, _, bounded, _, priorSet, _, valuesSet, _, gridSet, _, defaultSet,
    conditionsSet⟩ := accepted
  obtain ⟨paramType, rfl⟩ := setParameterTypeFromJson_ok typed
  obtain ⟨transformation, rfl⟩ := setTransformationFromJson_ok transformed
  simp only [setBoundsFromJson, bind_eq_ok, pure_eq_ok] at bounded
  obtain ⟨bounds, boundsRead, rfl⟩ := bounded
  have priorGiven := setPriorFromJson_given priorSet
  obtain ⟨prior, rfl⟩ := setPriorFromJson_ok priorSet
  obtain ⟨values, _, rfl⟩ := setCategoricalValuesFromJson_ok valuesSet
  have gridGiven := fun numeric => maybeSetGridValues_numeric numeric gridSet
  obtain ⟨grid, rfl⟩ := maybeSetGridValues_ok gridSet
  simp only [setDefaultValueFromJson, bind_eq_ok, pure_eq_ok] at defaultSet
  obtain ⟨default, defaultRead, rfl⟩ := defaultSet
  obtain ⟨conditions, rfl⟩ := setParameterConditionsFromJson_ok conditionsSet
  have boundsGiven := fun numeric => boundsFromJson_numeric numeric boundsRead
  have numericOfDouble : paramType = .double → decide (paramType = .categorical) = false := by
    rintro rfl
    rfl
  exact {
    grid := by
      intro numeric isGrid
      cases gridGiven numeric with
      | inl noGrid => exact absurd noGrid.2 (isGrid_iff.mp isGrid)
      | inr given => exact given.spanned (boundsGiven numeric)
    edge := fun numeric => (boundsGiven numeric).edge
    priorGrid := by
      intro hasPrior
      rcases priorGiven with ⟨_, same⟩ | ⟨given, _, priorOk, _⟩
      · rw [show prior = none from same] at hasPrior
        cases hasPrior
      · have numeric := numericOfDouble priorOk.isDouble
        cases gridGiven numeric with
        | inl noGrid => exact Bool.not_eq_true _ ▸ fun isGrid => isGrid_iff.mp isGrid noGrid.2
        | inr gridOk => exact absurd gridOk.isPresent (by rw [priorOk.noGrid]; decide)
    priorLog := by
      intro hasPrior
      rcases priorGiven with ⟨_, same⟩ | ⟨given, _, priorOk, _⟩
      · rw [show prior = none from same] at hasPrior
        cases hasPrior
      · exact priorOk.notLog
    priorMean := by
      intro mean scale isNormal
      rcases priorGiven with ⟨_, same⟩ | ⟨given, _, priorOk, isPrior⟩
      · rw [show prior = none from same] at isNormal
        cases isNormal
      · rw [show prior = some given from isPrior] at isNormal
        exact priorOk.mean mean scale (Option.some.inj isNormal)
    logBounds := fun isLog => (boundsGiven (numericOfDouble (isTyped.log isLog))).log isLog
    logDefault := by
      intro isLog
      apply defaultValueFromJson_log defaultRead isLog
      intro value isDefault
      cases isDefault }

/-! ### An update of a parameter -/

/-- What an accepted update of a parameter gives it. -/
structure ParameterRevised (parameter : ExperimentParameter) (json : JsonObject) (result : ExperimentParameter) : Prop where
  sameType : result.paramType = parameter.paramType
  sameTransformation : result.transformation = parameter.transformation
  bounds : parameter.isCategorical = false →
    (json.hasKey "bounds" = false ∧ json.hasKey "grid" = false ∧ result.bounds = parameter.bounds) ∨
      BoundsGiven parameter.transformation json result.bounds
  grid : parameter.isCategorical = false →
    (json.hasKey "grid" = false ∧ result.gridValues = parameter.gridValues) ∨ GridGiven json result.gridValues
  prior : (json.hasKey "prior" = false ∧ result.prior = parameter.prior) ∨
    (json.hasKey "prior" = true ∧ json.isPresent "prior" = false ∧ result.prior = none) ∨
    ∃ prior, json.isPresent "prior" = true ∧ PriorGiven result json prior ∧ result.prior = some prior
  default : parameter.transformation = .log →
    (∀ value, parameter.replacementValueIfMissing = some value → 0 < value) →
    ∀ value, result.replacementValueIfMissing = some value → 0 < value

theorem maybeSetParameterBounds_numeric {parameter result : ExperimentParameter} {json : JsonObject}
    (numeric : parameter.isCategorical = false) (accepted : maybeSetParameterBounds parameter json = .ok result) :
    (json.hasKey "bounds" = false ∧ json.hasKey "grid" = false ∧ result.bounds = parameter.bounds) ∨
      BoundsGiven parameter.transformation json result.bounds := by
  unfold maybeSetParameterBounds at accepted
  split at accepted
  · simp only [setBoundsFromJson, bind_eq_ok, pure_eq_ok] at accepted
    obtain ⟨bounds, read, rfl⟩ := accepted
    exact .inr (boundsFromJson_numeric numeric read)
  · next unmentioned =>
      rw [pure_eq_ok] at accepted
      subst accepted
      rw [Bool.or_eq_true, not_or, Bool.not_eq_true, Bool.not_eq_true] at unmentioned
      exact .inl ⟨unmentioned.1, unmentioned.2, rfl⟩

theorem maybeSetParameterPrior_given {parameter result : ExperimentParameter} {json : JsonObject}
    (accepted : maybeSetParameterPrior parameter json = .ok result) :
    (json.hasKey "prior" = false ∧ result.prior = parameter.prior) ∨
      (json.hasKey "prior" = true ∧ json.isPresent "prior" = false ∧ result.prior = none) ∨
      ∃ prior, json.isPresent "prior" = true ∧ PriorGiven parameter json prior ∧ result.prior = some prior := by
  unfold maybeSetParameterPrior at accepted
  split at accepted
  · next mentioned =>
      split at accepted
      · next present =>
          rcases setPriorFromJson_given accepted with ⟨absent, _⟩ | given
          · rw [present] at absent
            cases absent
          · exact .inr (.inr given)
      · next absent =>
          rw [pure_eq_ok] at accepted
          exact .inr (.inl ⟨mentioned, by simpa using absent, by rw [← accepted]⟩)
  · next unmentioned =>
      rw [pure_eq_ok] at accepted
      exact .inl ⟨by simpa using unmentioned, by rw [accepted]⟩

theorem maybeSetParameterDefaultValue_log {parameter result : ExperimentParameter} {json : JsonObject}
    (accepted : maybeSetParameterDefaultValue parameter json = .ok result) (isLog : parameter.transformation = .log)
    (before : ∀ value, parameter.replacementValueIfMissing = some value → 0 < value) :
    ∀ value, result.replacementValueIfMissing = some value → 0 < value := by
  unfold maybeSetParameterDefaultValue at accepted
  split at accepted
  · simp only [setDefaultValueFromJson, bind_eq_ok, pure_eq_ok] at accepted
    obtain ⟨default, read, rfl⟩ := accepted
    exact defaultValueFromJson_log read isLog before
  · rw [pure_eq_ok] at accepted
    subst accepted
    exact before

theorem revisedParameter_revised {parameter result : ExperimentParameter} {json : JsonObject}
    (accepted : revisedParameter parameter json = .ok result) : ParameterRevised parameter json result := by
  simp only [revisedParameter, updateParam, bind_eq_ok, pure_eq_ok] at accepted
  obtain ⟨_, ⟨_, _, _, _, _, bounded, _, gridSet, _, valuesSet, _, defaultSet, _, priorSet, _, _, _, _, rfl⟩, _, _,
    rfl⟩ := accepted
  have boundsGiven := fun numeric => maybeSetParameterBounds_numeric numeric bounded
  obtain ⟨bounds, rfl⟩ := maybeSetParameterBounds_ok bounded
  have gridGiven := fun numeric => maybeSetGridValues_numeric numeric gridSet
  obtain ⟨grid, rfl⟩ := maybeSetGridValues_ok gridSet
  obtain ⟨values, _, rfl⟩ := maybeSetParameterCategoricalValues_ok valuesSet
  have defaultKept := maybeSetParameterDefaultValue_log defaultSet
  obtain ⟨default, rfl⟩ := maybeSetParameterDefaultValue_ok defaultSet
  have priorGiven := maybeSetParameterPrior_given priorSet
  obtain ⟨prior, rfl⟩ := maybeSetParameterPrior_ok priorSet
  refine ⟨rfl, rfl, boundsGiven, gridGiven, ?_, defaultKept⟩
  rcases priorGiven with ⟨unmentioned, same⟩ | ⟨mentioned, absent, same⟩ | ⟨given, present, priorOk, same⟩
  · exact .inl ⟨unmentioned, same⟩
  · exact .inr (.inl ⟨mentioned, absent, same⟩)
  · exact .inr (.inr ⟨given, present, ⟨priorOk.isDouble, priorOk.notLog, priorOk.noGrid, priorOk.mean⟩, same⟩)

/-- Exactly when an accepted update keeps a parameter consistent: bounds that are sent alone, as doubles, span the
    stored grid and hold the mean of a prior that stays, a grid is not sent for a prior that stays, and a prior not
    for a grid. -/
structure KeepsConsistent (parameter : ExperimentParameter) (json : JsonObject) : Prop where
  bounds : parameter.isCategorical = false → ∀ members minimum maximum, json.get "bounds" = .object members →
    JsonObject.get members "min" = .number minimum → JsonObject.get members "max" = .number maximum →
    (parameter.isGrid = true → SpannedBy parameter.gridValues (storedBounds minimum maximum)) ∧
      (json.hasKey "prior" = false → ∀ mean scale, parameter.prior = some (.normal mean scale) →
        (storedBounds minimum maximum).minimum ≤ mean ∧ mean ≤ (storedBounds minimum maximum).maximum)
  grid : json.isPresent "grid" = true → parameter.prior.isSome → json.hasKey "prior" = true
  prior : json.isPresent "prior" = true → parameter.isGrid = false

section Revised

variable {parameter result : ExperimentParameter} {json : JsonObject}

theorem isPresent_of_get_object {key : String} {members : List (String × Json)} (given : json.get key = .object members) :
    json.isPresent key = true := by
  rw [JsonObject.isPresent, given]

/-- A revision leaves the type of a parameter. -/
theorem ParameterRevised.isCategorical (revised : ParameterRevised parameter json result) :
    result.isCategorical = parameter.isCategorical := by
  rw [ExperimentParameter.isCategorical, revised.sameType, ExperimentParameter.isCategorical]

/-- The grid of a prior that the request gives is the stored one. -/
theorem ParameterRevised.gridValues_of_prior (revised : ParameterRevised parameter json result) {prior : Prior}
    (given : PriorGiven result json prior) : result.gridValues = parameter.gridValues := by
  have numeric : parameter.isCategorical = false := by
    rw [ExperimentParameter.isCategorical, ← revised.sameType, given.isDouble]
    rfl
  cases revised.grid numeric with
  | inl kept => exact kept.2
  | inr gridGiven =>
      have present := gridGiven.isPresent
      rw [given.noGrid] at present
      cases present

theorem ParameterRevised.isGrid_of_prior (revised : ParameterRevised parameter json result) {prior : Prior}
    (given : PriorGiven result json prior) : result.isGrid = parameter.isGrid := by
  rw [ExperimentParameter.isGrid, revised.gridValues_of_prior given, ExperimentParameter.isGrid]

theorem numeric_of_prior (typed : Typed parameter) (hasPrior : parameter.prior.isSome) :
    parameter.isCategorical = false := by
  rw [ExperimentParameter.isCategorical, typed.prior hasPrior]
  rfl

/-- Bounds that the request gives without a grid are the two it names. -/
theorem BoundsGiven.eq_of_members {transformation : Transformation} {bounds : Bounds}
    (given : BoundsGiven transformation json bounds) {members : List (String × Json)} {minimum maximum : ℚ}
    (isObject : json.get "bounds" = .object members) (readMinimum : JsonObject.get members "min" = .number minimum)
    (readMaximum : JsonObject.get members "max" = .number maximum) :
    gridNumbers json = [] ∧ bounds = storedBounds minimum maximum := by
  rcases given.source with ⟨_, _, absent⟩ | ⟨noGrid, others, _, _, sameObject, sameMinimum, sameMaximum, stored⟩
  · rw [isPresent_of_get_object isObject] at absent
    cases absent
  · rw [isObject, Json.object.injEq] at sameObject
    subst sameObject
    rw [readMinimum, Json.number.injEq] at sameMinimum
    rw [readMaximum, Json.number.injEq] at sameMaximum
    rw [sameMinimum, sameMaximum]
    exact ⟨noGrid, stored⟩

/-- A revision that is consistent was asked for by a request that keeps it so. -/
theorem ParameterRevised.keeps (revised : ParameterRevised parameter json result) (typed : Typed parameter)
    (after : SelfConsistent result) : KeepsConsistent parameter json where
  bounds := by
    intro numeric members minimum maximum isObject readMinimum readMaximum
    have present := isPresent_of_get_object isObject
    have given : BoundsGiven parameter.transformation json result.bounds := by
      rcases revised.bounds numeric with ⟨unmentioned, _⟩ | given
      · rw [hasKey_of_isPresent present] at unmentioned
        cases unmentioned
      · exact given
    obtain ⟨noGrid, sameBounds⟩ := given.eq_of_members isObject readMinimum readMaximum
    rw [← sameBounds]
    constructor
    · intro isGrid
      have sameGrid : result.gridValues = parameter.gridValues := by
        cases revised.grid numeric with
        | inl kept => exact kept.2
        | inr gridGiven =>
            have perm := gridGiven.perm
            rw [noGrid] at perm
            exact absurd perm.eq_nil gridGiven.notEmpty
      rw [← sameGrid]
      apply after.grid
      · rw [revised.isCategorical]
        exact numeric
      · rw [ExperimentParameter.isGrid, sameGrid]
        exact isGrid
    · intro unmentioned mean scale isNormal
      rcases revised.prior with ⟨_, same⟩ | ⟨mentioned, _⟩ | ⟨prior, present, _⟩
      · exact after.priorMean mean scale (by rw [same]; exact isNormal)
      · rw [unmentioned] at mentioned
        cases mentioned
      · rw [hasKey_of_isPresent present] at unmentioned
        cases unmentioned
  grid := by
    intro present hasPrior
    have numeric := numeric_of_prior typed hasPrior
    rcases revised.prior with ⟨_, same⟩ | ⟨mentioned, _⟩ | ⟨prior, priorPresent, _⟩
    · have gridGiven : GridGiven json result.gridValues := by
        rcases revised.grid numeric with ⟨unmentioned, _⟩ | gridGiven
        · rw [hasKey_of_isPresent present] at unmentioned
          cases unmentioned
        · exact gridGiven
      have noGrid := after.priorGrid (by rw [same]; exact hasPrior)
      rw [isGrid_iff.mpr gridGiven.notEmpty] at noGrid
      cases noGrid
    · exact mentioned
    · exact hasKey_of_isPresent priorPresent
  prior := by
    intro present
    rcases revised.prior with ⟨unmentioned, _⟩ | ⟨_, absent, _⟩ | ⟨prior, _, given, isPrior⟩
    · rw [hasKey_of_isPresent present] at unmentioned
      cases unmentioned
    · rw [present] at absent
      cases absent
    · rw [← revised.isGrid_of_prior given]
      exact after.priorGrid (by rw [isPrior]; rfl)

/-- The bounds of the revised parameter, where the request gives some. -/
theorem ParameterRevised.spanned (revised : ParameterRevised parameter json result) (before : SelfConsistent parameter)
    (kept : KeepsConsistent parameter json) (numeric : parameter.isCategorical = false) (isGrid : result.isGrid = true) :
    SpannedBy result.gridValues result.bounds := by
  rcases revised.grid numeric with ⟨noGrid, sameGrid⟩ | gridGiven
  · have wasGrid : parameter.isGrid = true := by
      rw [ExperimentParameter.isGrid, ← sameGrid]
      exact isGrid
    rcases revised.bounds numeric with ⟨_, _, sameBounds⟩ | given
    · rw [sameGrid, sameBounds]
      exact before.grid numeric wasGrid
    · rcases given.source with ⟨someGrid, _⟩ | ⟨_, members, _, _, isObject, isMinimum, isMaximum, stored⟩
      · apply absurd _ someGrid
        rw [gridNumbers, requestedGrid, JsonObject.get_eq_null_of_not_hasKey noGrid]
        rfl
      · rw [sameGrid, stored]
        exact (kept.bounds numeric members _ _ isObject isMinimum isMaximum).1 wasGrid
  · rcases revised.bounds numeric with ⟨_, noGrid, _⟩ | given
    · rw [hasKey_of_isPresent gridGiven.isPresent] at noGrid
      cases noGrid
    · exact gridGiven.spanned given

theorem ParameterRevised.noGrid (revised : ParameterRevised parameter json result) (before : SelfConsistent parameter)
    (typed : Typed parameter) (kept : KeepsConsistent parameter json) (hasPrior : result.prior.isSome) :
    result.isGrid = false := by
  rcases revised.prior with ⟨unmentioned, same⟩ | ⟨_, _, isNone⟩ | ⟨prior, present, given, _⟩
  · rw [same] at hasPrior
    rcases revised.grid (numeric_of_prior typed hasPrior) with ⟨_, sameGrid⟩ | gridGiven
    · rw [ExperimentParameter.isGrid, sameGrid]
      exact before.priorGrid hasPrior
    · rw [kept.grid gridGiven.isPresent hasPrior] at unmentioned
      cases unmentioned
  · rw [isNone] at hasPrior
    cases hasPrior
  · rw [revised.isGrid_of_prior given]
    exact kept.prior present

theorem ParameterRevised.meanWithin (revised : ParameterRevised parameter json result) (before : SelfConsistent parameter)
    (typed : Typed parameter) (kept : KeepsConsistent parameter json) {mean scale : ℚ}
    (isNormal : result.prior = some (.normal mean scale)) :
    result.bounds.minimum ≤ mean ∧ mean ≤ result.bounds.maximum := by
  rcases revised.prior with ⟨unmentioned, same⟩ | ⟨_, _, isNone⟩ | ⟨prior, _, given, isPrior⟩
  · rw [same] at isNormal
    have hasPrior : parameter.prior.isSome := by
      rw [isNormal]
      rfl
    have numeric := numeric_of_prior typed hasPrior
    rcases revised.bounds numeric with ⟨_, _, sameBounds⟩ | boundsGiven
    · rw [sameBounds]
      exact before.priorMean mean scale isNormal
    · rcases boundsGiven.source with ⟨someGrid, _⟩ | ⟨_, members, _, _, isObject, isMinimum, isMaximum, stored⟩
      · have present : json.isPresent "grid" = true := by
          by_contra absent
          exact someGrid (gridNumbers_of_not_isPresent (by simpa using absent))
        rw [kept.grid present hasPrior] at unmentioned
        cases unmentioned
      · rw [stored]
        exact (kept.bounds numeric members _ _ isObject isMinimum isMaximum).2 unmentioned mean scale isNormal
  · rw [isNone] at isNormal
    cases isNormal
  · rw [isPrior, Option.some.injEq] at isNormal
    exact given.mean mean scale isNormal

/-- What one accepted update preserves, and exactly when. -/
theorem revisedParameter_consistent_iff (before : SelfConsistent parameter) (typed : Typed parameter)
    (accepted : revisedParameter parameter json = .ok result) :
    SelfConsistent result ↔ KeepsConsistent parameter json := by
  have revised := revisedParameter_revised accepted
  refine ⟨revised.keeps typed, ?_⟩
  intro kept
  exact {
    grid := by
      intro numeric
      rw [revised.isCategorical] at numeric
      exact revised.spanned before kept numeric
    edge := by
      intro numeric
      rw [revised.isCategorical] at numeric
      rcases revised.bounds numeric with ⟨_, _, same⟩ | given
      · rw [same]
        exact before.edge numeric
      · exact given.edge
    priorGrid := revised.noGrid before typed kept
    priorLog := by
      intro hasPrior
      rcases revised.prior with ⟨_, same⟩ | ⟨_, _, isNone⟩ | ⟨prior, _, given, _⟩
      · rw [revised.sameTransformation]
        exact before.priorLog (by rw [← same]; exact hasPrior)
      · rw [isNone] at hasPrior
        cases hasPrior
      · exact given.notLog
    priorMean := fun _ _ => revised.meanWithin before typed kept
    logBounds := by
      intro isLog
      rw [revised.sameTransformation] at isLog
      have numeric : parameter.isCategorical = false := by
        rw [ExperimentParameter.isCategorical, typed.log isLog]
        rfl
      rcases revised.bounds numeric with ⟨_, _, same⟩ | given
      · rw [same]
        exact before.logBounds isLog
      · exact given.log isLog
    logDefault := by
      intro isLog
      rw [revised.sameTransformation] at isLog
      exact revised.default isLog (before.logDefault isLog) }

end Revised

end Zigopt.Experiment
