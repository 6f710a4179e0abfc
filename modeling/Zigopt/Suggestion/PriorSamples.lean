/-
Module: Zigopt.Suggestion.PriorSamples
Layer: Suggestion
Purpose: The suggestions that are sampled from priors are feasible whatever is drawn, if no parameter with an active
  prior has categories, or a grid with a gap that a sample may fall into.
Main exports: PriorFits, sampleFromPrior_inDomain, feasible_fetchXgb
-/
import Zigopt.Suggestion.SampledPoints

namespace Zigopt.Suggestion

open Raising Experiment Assignments SigoptCompute

/-- Every integer between the bounds of an integer parameter is in its grid. -/
structure GridFilled (parameter : ExperimentParameter) : Prop where
  integer : parameter.isInteger = true
  filled : ∀ integer : ℤ, parameter.bounds.minimum ≤ integer → (integer : ℚ) ≤ parameter.bounds.maximum →
    (integer : ℚ) ∈ parameter.gridValues

/-- The samples of a prior are values of the parameter. -/
structure PriorFits (parameter : ExperimentParameter) : Prop where
  numerical : parameter.isCategorical = false
  grid : parameter.isGrid = true → GridFilled parameter

section Priors

variable {experiment : ExperimentMeta} {parameter : ExperimentParameter} {logarithm : Logarithm ℚ}

theorem truncate_between {lower upper : ℤ} {number : ℚ} (isLower : lower ≤ number) (isUpper : number ≤ upper) :
    lower ≤ truncate number ∧ truncate number ≤ upper := by
  unfold truncate
  split
  · exact ⟨Int.cast_le.mp (isLower.trans (Int.le_ceil number)), Int.ceil_le.mpr isUpper⟩
  · exact ⟨Int.le_floor.mpr isLower, Int.cast_le.mp ((Int.floor_le number).trans isUpper)⟩

theorem rejectionSample_between (edge : parameter.bounds.minimum < parameter.bounds.maximum) (draw : PriorDraw) :
    parameter.bounds.minimum ≤ rejectionSample parameter draw ∧
      rejectionSample parameter draw ≤ parameter.bounds.maximum := by
  unfold rejectionSample
  cases found : draw.samples.find? fun sample =>
      parameter.bounds.minimum ≤ sample ∧ sample ≤ parameter.bounds.maximum with
  | some accepted =>
      have holds := List.find?_some found
      exact of_decide_eq_true holds
  | none =>
      obtain ⟨isLower, isUpper⟩ := uniform_mem draw.other edge
      exact ⟨isLower, isUpper.le⟩

/-- The bounds of an integer parameter are integers, with a grid or without. -/
theorem exists_integerBounds (sound : Sound experiment) (isParameter : parameter ∈ allParameters experiment)
    (integer : parameter.isInteger = true) (numerical : parameter.isCategorical = false) :
    ∃ minimum maximum : ℤ, parameter.bounds.minimum = minimum ∧ parameter.bounds.maximum = maximum := by
  cases grid : parameter.isGrid with
  | false =>
      obtain ⟨minimum, maximum, isBounds, _⟩ := (sound.domains parameter isParameter).integer integer grid
      rw [isBounds]
      exact ⟨minimum, maximum, rfl, rfl⟩
  | true =>
      have spanned := (sound.consistent parameter isParameter).grid numerical grid
      obtain ⟨minimum, isMinimum⟩ := sound.integerGrids parameter isParameter integer _ spanned.minimum.1
      obtain ⟨maximum, isMaximum⟩ := sound.integerGrids parameter isParameter integer _ spanned.maximum.1
      exact ⟨minimum, maximum, isMinimum, isMaximum⟩

/-- A sample of a prior lies in the domain, where the prior fits the parameter. -/
theorem sampleFromPrior_inDomain (sound : Sound experiment) (isParameter : parameter ∈ allParameters experiment)
    (fits : PriorFits parameter) (draw : PriorDraw) : InDomain parameter (sampleFromPrior parameter draw) := by
  have edge := (sound.consistent parameter isParameter).edge fits.numerical
  have between := rejectionSample_between edge draw
  have notCategorical : ¬parameter.isCategorical = true := Bool.not_eq_true _ ▸ fits.numerical
  unfold sampleFromPrior
  by_cases integer : parameter.isInteger = true
  · obtain ⟨minimum, maximum, isMinimum, isMaximum⟩ := exists_integerBounds sound isParameter integer fits.numerical
    rw [isMinimum, isMaximum] at between
    obtain ⟨isLower, isUpper⟩ := truncate_between between.1 between.2
    have castLower : parameter.bounds.minimum ≤ (truncate (rejectionSample parameter draw) : ℚ) :=
      isMinimum ▸ Int.cast_le.mpr isLower
    have castUpper : (truncate (rejectionSample parameter draw) : ℚ) ≤ parameter.bounds.maximum :=
      isMaximum ▸ Int.cast_le.mpr isUpper
    rw [if_pos integer, InDomain, if_neg notCategorical]
    split
    · rename_i grid
      exact ⟨_, (fits.grid grid).filled _ castLower castUpper, (Rat.cast_id _).symm⟩
    · exact ⟨⟨castLower, castUpper⟩, fun _ => ⟨_, rfl⟩⟩
  · have notGrid : ¬parameter.isGrid = true := fun grid => integer (fits.grid grid).integer
    rw [if_neg integer, InDomain, if_neg notCategorical, if_neg notGrid]
    exact ⟨between, fun impossible => absurd impossible integer⟩

/-- The sampled experiment of an experiment without conditionals is the experiment. -/
theorem isSampled_self (sound : Sound experiment) (unconditional : experiment.conditionals = []) :
    IsSampled experiment experiment :=
  experimentToSample_ok sound (if_pos unconditional)

/-- The items of a round: the name of each parameter with the value that it is given. -/
theorem xgb_items {priors : List String} {parameters : List ExperimentParameter} {draws : String → PriorDraw}
    {items : List (String × ℚ)}
    (drawn : (parameters.mapM fun parameter => do
      let value ← xgbValue logarithm priors parameter (draws parameter.name)
      return (parameter.name, value)) = .ok items) :
    items.map Prod.fst = parameters.map (·.name) ∧ ∀ parameter ∈ parameters, ∃ value,
      (parameter.name, value) ∈ items ∧ xgbValue logarithm priors parameter (draws parameter.name) = .ok value := by
  have related : List.Forall₂ (fun (parameter : ExperimentParameter) (item : String × ℚ) => item.1 = parameter.name ∧
      xgbValue logarithm priors parameter (draws parameter.name) = .ok item.2) parameters items := by
    apply (mapM_eq_ok.mp drawn).imp
    intro parameter item isItem
    obtain ⟨value, isValue, same⟩ := bind_eq_ok.mp isItem
    rw [← Except.ok.inj same]
    exact ⟨rfl, isValue⟩
  constructor
  · rw [← List.forall₂_eq_eq_eq, List.forall₂_map_left_iff, List.forall₂_map_right_iff]
    exact related.flip.imp fun _ _ isItem => isItem.1
  · intro parameter isParameter
    obtain ⟨⟨name, value⟩, isItem, isName, isValue⟩ := exists_answer related isParameter
    obtain rfl : name = parameter.name := isName
    exact ⟨value, isItem, isValue⟩

/-- What a row of the sampler with priors assigns to a parameter. -/
theorem xgb_row (sound : Sound experiment) {cdf : String → ℚ → ℚ} {draws : ℕ → String → PriorDraw} {count : ℕ}
    {suggestions : List AssignmentsMap}
    (fetched : fetchXgb logarithm cdf experiment draws count = .ok suggestions) {row : AssignmentsMap}
    (isRow : row ∈ suggestions) :
    ∃ round, ∀ parameter ∈ allParameters experiment, ∃ value, row parameter.name = some value ∧
      xgbValue logarithm (activePriors cdf experiment) parameter (draws round parameter.name) = .ok value := by
  obtain ⟨round, _, isFetched⟩ := exists_item (mapM_eq_ok.mp fetched) isRow
  obtain ⟨items, areItems, same⟩ := bind_eq_ok.mp isFetched
  obtain rfl := Except.ok.inj same
  obtain ⟨names, values⟩ := xgb_items (mapError_eq_ok.mp areItems)
  refine ⟨round, ?_⟩
  intro parameter isParameter
  obtain ⟨value, isItem, isValue⟩ := values parameter isParameter
  refine ⟨value, foldl_setAssignment ?_ isItem _, isValue⟩
  rw [names]
  exact sound.parameterNames

/-- Every suggestion that is drawn from the priors of XGBoost is feasible, where the active priors fit. -/
theorem feasible_fetchXgb (sound : Sound experiment) (unconditional : experiment.conditionals = [])
    {cdf : String → ℚ → ℚ} (fits : ∀ parameter ∈ allParameters experiment,
      parameter.name ∈ activePriors cdf experiment → PriorFits parameter)
    {draws : ℕ → String → PriorDraw} {count : ℕ} {suggestions : List AssignmentsMap}
    (fetched : fetchXgb logarithm cdf experiment draws count = .ok suggestions) :
    ∀ row ∈ suggestions, Feasible experiment (getAssignments experiment row) := by
  intro row isRow
  obtain ⟨round, values⟩ := xgb_row sound fetched isRow
  have known := isSampled_self sound unconditional
  apply feasible_of_full sound
  apply full_of_values known
  intro parameter isParameter
  obtain ⟨value, assigned, isValue⟩ := values parameter isParameter
  refine ⟨value, assigned, ?_⟩
  unfold xgbValue at isValue
  split at isValue
  · rename_i hasPrior
    rw [← Except.ok.inj isValue]
    exact sampleFromPrior_inDomain sound isParameter (fits parameter isParameter hasPrior) _
  · obtain ⟨other, isOther, inDomain⟩ :=
      randomValue_inDomain logarithm (known.samplable sound parameter isParameter) (draws round parameter.name).other
    rw [← Except.ok.inj (isOther.symm.trans isValue)]
    exact inDomain

end Priors

end Zigopt.Suggestion
