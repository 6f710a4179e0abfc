/-
Module: Zigopt.Suggestion.UnseenCombination
Layer: Suggestion
Purpose: The categorical-only sampler serves a combination that is not in use while there is one, exactly if the
  combinations it lists are the valid ones: it knows nothing of conditionals, and two parameters of one name would
  share a place in a combination.
Main exports: combosFit_of_serves, serves_unseen_iff, conditional_not_served
-/
import Mathlib.Data.Finset.Sort
import Zigopt.Experiment.TwoValues
import Zigopt.Suggestion.CategoricalSampler

namespace Zigopt.Suggestion

open Raising Experiment Assignments

/-! ### Items of a dict -/

theorem assignmentsOfItems_snoc (items : List (String × ℚ)) (item : String × ℚ) :
    assignmentsOfItems (items ++ [item]) = (assignmentsOfItems items).set item.1 item.2 := by
  rw [assignmentsOfItems, List.foldl_append]
  rfl

theorem AssignmentsMap.set_same (assignments : AssignmentsMap) (name : String) (value : ℚ) :
    assignments.set name value name = some value :=
  Function.update_self _ _ _

theorem AssignmentsMap.set_other (assignments : AssignmentsMap) {name other : String} (value : ℚ)
    (apart : other ≠ name) : assignments.set name value other = assignments other :=
  Function.update_of_ne apart _ _

theorem mem_of_assignmentsOfItems {items : List (String × ℚ)} {name : String} {value : ℚ}
    (assigned : assignmentsOfItems items name = some value) : (name, value) ∈ items := by
  induction items using List.reverseRecOn with
  | nil => cases assigned
  | append_singleton items item inductionHypothesis =>
      rw [assignmentsOfItems_snoc] at assigned
      by_cases same : name = item.1
      · rw [same, AssignmentsMap.set_same, Option.some.injEq] at assigned
        rw [same, ← assigned]
        exact List.mem_append_right _ (List.mem_singleton_self _)
      · rw [AssignmentsMap.set_other _ _ same] at assigned
        exact List.mem_append_left _ (inductionHypothesis assigned)

theorem assigned_of_mem {items : List (String × ℚ)} {name : String} {value : ℚ} (member : (name, value) ∈ items) :
    ∃ other, assignmentsOfItems items name = some other := by
  induction items using List.reverseRecOn with
  | nil => cases member
  | append_singleton items item inductionHypothesis =>
      rw [assignmentsOfItems_snoc]
      by_cases same : name = item.1
      · exact ⟨item.2, same ▸ AssignmentsMap.set_same _ _ _⟩
      · rw [AssignmentsMap.set_other _ _ same]
        rcases List.mem_append.mp member with earlier | last
        · exact inductionHypothesis earlier
        · rw [← List.mem_singleton.mp last] at same
          exact absurd rfl same

/-- Where no two items share a name, the dict has just the items. -/
theorem assignmentsOfItems_eq_some_iff {items : List (String × ℚ)}
    (functional : ∀ name first second, (name, first) ∈ items → (name, second) ∈ items → first = second)
    {name : String} {value : ℚ} : assignmentsOfItems items name = some value ↔ (name, value) ∈ items := by
  constructor
  · exact mem_of_assignmentsOfItems
  · intro member
    obtain ⟨other, assigned⟩ := assigned_of_mem member
    rw [functional name value other member (mem_of_assignmentsOfItems assigned)]
    exact assigned

/-! ### Maps as frozen sets of items -/

section Frozen

variable {experiment : ExperimentMeta} {assignments : AssignmentsMap}

/-- Only names of the experiment are assigned. -/
def Supported (experiment : ExperimentMeta) (assignments : AssignmentsMap) : Prop :=
  ∀ name, name ∉ (allParameters experiment).map (·.name) → name ∉ experiment.conditionalNames → assignments name = none

theorem mem_frozenItems {name : String} {value : ℚ} (supported : Supported experiment assignments) :
    (name, value) ∈ frozenItems experiment assignments ↔ assignments name = some value := by
  rw [frozenItems, List.mem_toFinset, List.mem_filterMap]
  constructor
  · rintro ⟨other, _, isItem⟩
    rw [Option.map_eq_some_iff] at isItem
    obtain ⟨found, assigned, same⟩ := isItem
    rw [Prod.mk.injEq] at same
    rw [← same.1, ← same.2]
    exact assigned
  · intro assigned
    refine ⟨name, ?_, by rw [assigned, Option.map_some]⟩
    by_contra unknown
    rw [List.mem_append, not_or] at unknown
    rw [supported name unknown.1 unknown.2] at assigned
    cases assigned

theorem frozenItems_injective {other : AssignmentsMap} (supported : Supported experiment assignments)
    (otherSupported : Supported experiment other)
    (same : frozenItems experiment assignments = frozenItems experiment other) : assignments = other := by
  funext name
  apply Option.ext
  intro value
  rw [← mem_frozenItems supported, ← mem_frozenItems otherSupported, same]

/-- A map is what its frozen set of items is made to again. -/
theorem assignmentsOfItems_frozenItems (order : SetOrder) (supported : Supported experiment assignments) :
    assignmentsOfItems (order.toList (frozenItems experiment assignments)) = assignments := by
  have listed : ∀ {name value}, (name, value) ∈ order.toList (frozenItems experiment assignments) ↔
      assignments name = some value := by
    intro name value
    rw [← List.mem_toFinset, order.toFinset_toList, mem_frozenItems supported]
  funext name
  apply Option.ext
  intro value
  rw [assignmentsOfItems_eq_some_iff, listed]
  intro other first second isFirst isSecond
  exact Option.some.inj ((listed.mp isFirst).symm.trans (listed.mp isSecond))

theorem getAssignments_supported (row : AssignmentsMap) : Supported experiment (getAssignments experiment row) := by
  intro name notParameter notConditional
  rw [getAssignments, if_neg notConditional, if_neg]
  intro found
  obtain ⟨parameter, isParameter, named⟩ := List.any_eq_true.mp found
  rw [Bool.and_eq_true, decide_eq_true_eq] at named
  exact notParameter (List.mem_map.mpr ⟨parameter, isParameter, named.1⟩)

theorem IsCombination.supported (combination : IsCombination experiment assignments) :
    Supported experiment assignments :=
  combination.onlyNames

theorem mem_unsampled_iff {rows : List AssignmentsMap} (supported : Supported experiment assignments) :
    frozenItems experiment assignments ∈ unsampled experiment rows ↔
      frozenItems experiment assignments ∈ allCategoricalValueCombos (allParameters experiment) ∧
        Unused experiment rows assignments := by
  rw [unsampled, Finset.mem_sdiff, List.mem_toFinset, List.mem_toFinset]
  apply and_congr_right
  intro _
  constructor
  · intro notSampled row isRow same
    exact notSampled (List.mem_map.mpr ⟨row, isRow, by rw [same]⟩)
  · intro unused sampled
    obtain ⟨row, isRow, same⟩ := List.mem_map.mp sampled
    exact unused row isRow (frozenItems_injective (getAssignments_supported row) supported same)

end Frozen

/-! ### The combinations that are listed -/

theorem mem_allCombos {α : Type} {lists : List (List α)} {combo : List α} :
    combo ∈ allCombos lists ↔ List.Forall₂ (fun possibility list => possibility ∈ list) combo lists := by
  induction lists generalizing combo with
  | nil => simp [allCombos]
  | cons these rest inductionHypothesis =>
      simp only [allCombos, List.mem_flatMap, List.mem_map, inductionHypothesis, List.forall₂_cons_right_iff]
      constructor
      · rintro ⟨sub, inRest, possibility, isThese, rfl⟩
        exact ⟨possibility, sub, isThese, inRest, rfl⟩
      · rintro ⟨possibility, sub, isThese, inRest, rfl⟩
        exact ⟨sub, inRest, possibility, isThese, rfl⟩

/-- One item for each parameter, with the name and the index of an active value. -/
def ItemsFor (parameters : List ExperimentParameter) (items : List (String × ℚ)) : Prop :=
  List.Forall₂ (fun item parameter => item ∈ valuesForParameter parameter) items parameters

theorem mem_allCategoricalValueCombos {parameters : List ExperimentParameter} {combo : Combo} :
    combo ∈ allCategoricalValueCombos parameters ↔ ∃ items, ItemsFor parameters items ∧ items.toFinset = combo := by
  simp only [allCategoricalValueCombos, List.mem_map, mem_allCombos, List.forall₂_map_right_iff, ItemsFor]

theorem mem_valuesForParameter {parameter : ExperimentParameter} {name : String} {value : ℚ} :
    (name, value) ∈ valuesForParameter parameter ↔
      name = parameter.name ∧ ∃ enumIndex : Nat, enumIndex ∈ activeIndices parameter ∧ value = (enumIndex : ℚ) := by
  simp only [valuesForParameter, List.mem_map, Prod.mk.injEq]
  constructor
  · rintro ⟨enumIndex, isActive, isName, isValue⟩
    exact ⟨isName.symm, enumIndex, isActive, isValue.symm⟩
  · rintro ⟨isName, enumIndex, isActive, isValue⟩
    exact ⟨enumIndex, isActive, isName.symm, isValue.symm⟩

/-- Every active parameter has one of its active values, and nothing else is assigned. -/
structure Picks (experiment : ExperimentMeta) (assignments : AssignmentsMap) : Prop where
  picked : ∀ parameter ∈ allParameters experiment,
    ∃ enumIndex : Nat, enumIndex ∈ activeIndices parameter ∧ assignments parameter.name = some (enumIndex : ℚ)
  onlyNames : ∀ name, name ∉ (allParameters experiment).map (·.name) → assignments name = none

section Picks

variable {experiment : ExperimentMeta} {assignments : AssignmentsMap}

theorem Picks.supported (picks : Picks experiment assignments) : Supported experiment assignments :=
  fun name notParameter _ => picks.onlyNames name notParameter

theorem Picks.listed (picks : Picks experiment assignments) :
    frozenItems experiment assignments ∈ allCategoricalValueCombos (allParameters experiment) := by
  rw [mem_allCategoricalValueCombos]
  refine ⟨(allParameters experiment).map fun parameter => (parameter.name, (assignments parameter.name).getD 0), ?_, ?_⟩
  · rw [ItemsFor, List.forall₂_map_left_iff, List.forall₂_same]
    intro parameter isParameter
    obtain ⟨enumIndex, isActive, assigned⟩ := picks.picked parameter isParameter
    rw [assigned]
    exact mem_valuesForParameter.mpr ⟨rfl, enumIndex, isActive, rfl⟩
  · ext ⟨name, value⟩
    rw [List.mem_toFinset, mem_frozenItems picks.supported, List.mem_map]
    constructor
    · rintro ⟨parameter, isParameter, isItem⟩
      obtain ⟨enumIndex, _, assigned⟩ := picks.picked parameter isParameter
      rw [Prod.mk.injEq, assigned, Option.getD_some] at isItem
      rw [← isItem.1, ← isItem.2]
      exact assigned
    · intro assigned
      have named : name ∈ (allParameters experiment).map (·.name) := by
        by_contra unknown
        rw [picks.onlyNames name unknown] at assigned
        cases assigned
      obtain ⟨parameter, isParameter, rfl⟩ := List.mem_map.mp named
      exact ⟨parameter, isParameter, by rw [assigned, Option.getD_some]⟩

/-- The items are named as the parameters are. -/
theorem ItemsFor.names {parameters : List ExperimentParameter} {items : List (String × ℚ)}
    (itemsFor : ItemsFor parameters items) : items.map Prod.fst = parameters.map (·.name) := by
  rw [← List.forall₂_eq_eq_eq, List.forall₂_map_left_iff, List.forall₂_map_right_iff]
  exact itemsFor.imp fun _ _ isValue => (mem_valuesForParameter.mp isValue).1

/-- With distinct names, the items for the parameters are the items of a map that picks them. -/
theorem ItemsFor.picks (distinct : ((allParameters experiment).map (·.name)).Nodup) {items : List (String × ℚ)}
    (itemsFor : ItemsFor (allParameters experiment) items) :
    Picks experiment (assignmentsOfItems items) ∧
      frozenItems experiment (assignmentsOfItems items) = items.toFinset ∧
        ∀ item ∈ items, assignmentsOfItems items item.1 = some item.2 := by
  rw [← itemsFor.names] at distinct
  have functional : ∀ name first second, (name, first) ∈ items → (name, second) ∈ items → first = second := by
    intro name first second isFirst isSecond
    have same := List.inj_on_of_nodup_map distinct isFirst isSecond rfl
    exact (Prod.mk.inj same).2
  have assigned : ∀ {name value}, assignmentsOfItems items name = some value ↔ (name, value) ∈ items :=
    assignmentsOfItems_eq_some_iff functional
  have picks : Picks experiment (assignmentsOfItems items) := by
    constructor
    · intro parameter isParameter
      obtain ⟨item, isItem, isValue⟩ := exists_item itemsFor isParameter
      obtain ⟨isName, enumIndex, isActive, isIndex⟩ := mem_valuesForParameter.mp isValue
      refine ⟨enumIndex, isActive, assigned.mpr ?_⟩
      rw [← isName, ← isIndex]
      exact isItem
    · intro name unknown
      cases found : assignmentsOfItems items name with
      | none => rfl
      | some value =>
          have named : name ∈ items.map Prod.fst := List.mem_map.mpr ⟨(name, value), assigned.mp found, rfl⟩
          rw [itemsFor.names] at named
          exact absurd named unknown
  refine ⟨picks, ?_, fun item isItem => assigned.mpr isItem⟩
  ext ⟨name, value⟩
  rw [mem_frozenItems picks.supported, assigned, List.mem_toFinset]

end Picks

/-! ### Serving what fits -/

section Fit

variable {experiment : ExperimentMeta} {assignments : AssignmentsMap}

theorem conditionsSatisfied_iff {parameter : ExperimentParameter} :
    parameterConditionsSatisfied parameter assignments = true ↔
      ∀ condition ∈ parameter.conditions, ∀ value, assignments condition.name = some value →
        value ∈ condition.values := by
  rw [parameterConditionsSatisfied, List.all_eq_true]
  apply forall₂_congr
  intro condition _
  cases assignments condition.name with
  | none => simp
  | some value => simp

/-- Where the listed combinations fit, they are the valid ones. -/
theorem CombosFit.isCombination_iff (fit : CombosFit experiment) (kept : CategoricalKept experiment) :
    IsCombination experiment assignments ↔ Picks experiment assignments := by
  constructor
  · intro combination
    have allSatisfied : ∀ parameter ∈ allParameters experiment,
        parameterConditionsSatisfied parameter assignments = true := by
      intro parameter isParameter
      rw [conditionsSatisfied_iff]
      intro condition isCondition value assigned
      have isStored := (List.mem_filter.mp ((List.mem_insertionSort _).mp isParameter)).1
      obtain ⟨conditional, isConditional, named, _⟩ :=
        (kept.conditionsKnown parameter isStored).known condition isCondition
      obtain ⟨other, isOther, otherNamed, _⟩ := fit.conditionalsNamed conditional isConditional
      rw [← named, ← otherNamed] at assigned
      cases there : parameterConditionsSatisfied other assignments with
      | false =>
          rw [combination.unsatisfied other isOther there] at assigned
          cases assigned
      | true =>
          obtain ⟨enumIndex, isActive, isIndex⟩ := combination.satisfied other isOther there
          rw [isIndex, Option.some.injEq] at assigned
          rw [← assigned]
          exact fit.conditionsMet parameter isParameter condition isCondition other isOther
            (otherNamed.trans named) enumIndex isActive
    constructor
    · intro parameter isParameter
      exact combination.satisfied parameter isParameter (allSatisfied parameter isParameter)
    · intro name unknown
      apply combination.onlyNames name unknown
      intro isConditional
      obtain ⟨conditional, member, rfl⟩ := List.mem_map.mp isConditional
      obtain ⟨other, isOther, named, _⟩ := fit.conditionalsNamed conditional member
      exact unknown (List.mem_map.mpr ⟨other, isOther, named⟩)
  · intro picks
    have allSatisfied : ∀ parameter ∈ allParameters experiment,
        parameterConditionsSatisfied parameter assignments = true := by
      intro parameter isParameter
      rw [conditionsSatisfied_iff]
      intro condition isCondition value assigned
      have named : condition.name ∈ (allParameters experiment).map (·.name) := by
        by_contra unknown
        rw [picks.onlyNames _ unknown] at assigned
        cases assigned
      obtain ⟨other, isOther, otherNamed⟩ := List.mem_map.mp named
      obtain ⟨enumIndex, isActive, isIndex⟩ := picks.picked other isOther
      rw [otherNamed, assigned, Option.some.injEq] at isIndex
      rw [isIndex]
      exact fit.conditionsMet parameter isParameter condition isCondition other isOther otherNamed enumIndex isActive
    constructor
    · intro conditional isConditional
      obtain ⟨parameter, isParameter, named, values⟩ := fit.conditionalsNamed conditional isConditional
      obtain ⟨enumIndex, isActive, assigned⟩ := picks.picked parameter isParameter
      obtain ⟨value, isValue, isIndex⟩ := values enumIndex isActive
      exact ⟨value, isValue, by rw [← named, assigned, isIndex]⟩
    · intro parameter isParameter _
      exact picks.picked parameter isParameter
    · intro parameter isParameter notSatisfied
      rw [allSatisfied parameter isParameter] at notSatisfied
      cases notSatisfied
    · intro name unknown _
      exact picks.onlyNames name unknown

theorem CombosFit.exists_combination (fit : CombosFit experiment) (kept : CategoricalKept experiment) {combo : Combo}
    (listed : combo ∈ allCategoricalValueCombos (allParameters experiment)) :
    ∃ assignments, IsCombination experiment assignments ∧ frozenItems experiment assignments = combo := by
  obtain ⟨items, itemsFor, rfl⟩ := mem_allCategoricalValueCombos.mp listed
  obtain ⟨picks, frozen, _⟩ := itemsFor.picks fit.distinctNames
  exact ⟨_, (fit.isCombination_iff kept).mpr picks, frozen⟩

theorem listed_of_unsampled {rows : List AssignmentsMap} {combo : Combo} (free : combo ∈ unsampled experiment rows) :
    combo ∈ allCategoricalValueCombos (allParameters experiment) :=
  List.mem_toFinset.mp (Finset.mem_sdiff.mp free).1

theorem CombosFit.servesUnseen (fit : CombosFit experiment) (kept : CategoricalKept experiment) :
    ServesUnseen experiment := by
  intro openSuggestions observations limit sampling order before after assignments served
  obtain ⟨combosBefore, combosRest, drawn, rfl, restServed⟩ := List.map_eq_append_iff.mp served
  obtain ⟨combo, combosAfter, rfl, rfl, _⟩ := List.map_eq_cons_iff.mp restServed
  have isDrawn : combo ∈ sampling.items := by
    rw [drawn]
    exact List.mem_append_right _ List.mem_cons_self
  have listed : ∀ {other}, other ∈ sampling.items →
      other ∈ allCategoricalValueCombos (allParameters experiment) := by
    intro other isItem
    rcases Drawing.mem_items isItem with free | listed
    · exact listed_of_unsampled free
    · exact listed
  obtain ⟨assignments, combination, rfl⟩ := fit.exists_combination kept (listed isDrawn)
  rw [assignmentsOfItems_frozenItems order combination.supported]
  refine ⟨combination, ?_⟩
  rintro ⟨other, otherCombination, otherUnused, notBefore⟩
  rcases Drawing.fresh_or_exhausted drawn with ⟨free, notDrawn⟩ | exhausted
  · refine ⟨((mem_unsampled_iff combination.supported).mp free).2, ?_⟩
    intro isBefore
    obtain ⟨earlier, isEarlier, same⟩ := List.mem_map.mp isBefore
    have earlierDrawn : earlier ∈ sampling.items := by
      rw [drawn]
      exact List.mem_append_left _ isEarlier
    obtain ⟨earlierAssignments, earlierCombination, rfl⟩ := fit.exists_combination kept (listed earlierDrawn)
    rw [assignmentsOfItems_frozenItems order earlierCombination.supported] at same
    rw [same] at isEarlier
    exact notDrawn isEarlier
  · have otherListed := ((fit.isCombination_iff kept).mp otherCombination).listed
    have otherFree := (mem_unsampled_iff otherCombination.supported).mpr ⟨otherListed, otherUnused⟩
    have isBefore := exhausted _ otherFree
    refine absurd (List.mem_map.mpr ⟨_, isBefore, ?_⟩) notBefore
    exact assignmentsOfItems_frozenItems order otherCombination.supported

end Fit

/-! ### What serving unseen combinations takes -/

section Serves

variable {experiment : ExperimentMeta}

/-- Any item of a combination can be the last that Python comes to. -/
theorem exists_order {combo : Combo} {item : String × ℚ} (member : item ∈ combo) :
    ∃ (order : SetOrder) (front : List (String × ℚ)), order.toList combo = front ++ [item] := by
  classical
  refine ⟨⟨fun other => if item ∈ other then (other.erase item).toList ++ [item] else other.toList, ?_, ?_⟩,
    (combo.erase item).toList, if_pos member⟩
  · intro other
    split
    · rw [List.nodup_append']
      refine ⟨Finset.nodup_toList _, List.nodup_singleton _, ?_⟩
      intro earlier isEarlier isItem
      rw [List.mem_singleton.mp isItem] at isEarlier
      exact Finset.notMem_erase item other (Finset.mem_toList.mp isEarlier)
    · exact Finset.nodup_toList _
  · intro other
    split
    · rename_i isItem
      rw [List.toFinset_append, Finset.toList_toFinset, List.toFinset_cons, List.toFinset_nil, insert_empty_eq,
        Finset.union_comm, ← Finset.insert_eq, Finset.insert_erase isItem]
    · exact Finset.toList_toFinset other

/-- Any combination that no row has can be the one that is drawn. -/
theorem exists_sampling {rows : List AssignmentsMap} {combo : Combo} (free : combo ∈ unsampled experiment rows) :
    ∃ sampling : Sampling experiment rows 1, sampling.items = [combo] := by
  have positive : 0 < (unsampled experiment rows).card := Finset.card_pos.mpr ⟨combo, free⟩
  refine ⟨{
    fresh := [combo]
    fresh_nodup := List.nodup_singleton _
    fresh_mem := fun item isItem => List.mem_singleton.mp isItem ▸ free
    fresh_length := by rw [List.length_singleton]; omega
    repeated := List.replicate ((allCategoricalValueCombos (allParameters experiment)).length -
      min 1 (unsampled experiment rows).card) combo
    repeated_mem := fun item isItem => (List.mem_replicate.mp isItem).2 ▸ listed_of_unsampled free
    repeated_length := List.length_replicate }, rfl⟩

/-- The first suggestion of a combination that no row has. -/
theorem ServesUnseen.first (serves : ServesUnseen experiment) {rows : List AssignmentsMap} {combo : Combo}
    (free : combo ∈ unsampled experiment rows) (order : SetOrder) :
    IsCombination experiment (assignmentsOfItems (order.toList combo)) ∧
      ((∃ other, IsCombination experiment other ∧ Unused experiment rows other) →
        Unused experiment rows (assignmentsOfItems (order.toList combo))) := by
  obtain ⟨sampling, drawn⟩ := exists_sampling free
  have served : fetchBestSuggestions sampling order = [] ++ assignmentsOfItems (order.toList combo) :: [] := by
    rw [fetchBestSuggestions, drawn]
    rfl
  obtain ⟨combination, unseen⟩ := serves [] rows 1 sampling order [] [] _ served
  refine ⟨combination, ?_⟩
  rintro ⟨other, otherCombination, otherUnused⟩
  exact (unseen ⟨other, otherCombination, otherUnused, List.not_mem_nil⟩).1

theorem mem_unsampled_nil {combo : Combo} :
    combo ∈ unsampled experiment [] ↔ combo ∈ allCategoricalValueCombos (allParameters experiment) := by
  rw [unsampled, List.map_nil, List.toFinset_nil, Finset.sdiff_empty, List.mem_toFinset]

theorem replaceMissing_of_some {row : AssignmentsMap} {name : String} {value : ℚ} (assigned : row name = some value)
    (parameter : ExperimentParameter) : replaceMissing row parameter name = some value := by
  unfold replaceMissing
  cases stored : row parameter.name with
  | some _ => exact assigned
  | none =>
      cases parameter.replacementValueIfMissing with
      | none => exact assigned
      | some replacement =>
          have apart : name ≠ parameter.name := by
            intro same
            rw [same, stored] at assigned
            cases assigned
          exact (AssignmentsMap.set_other _ _ apart).trans assigned

theorem parameterValue_of_some {row : AssignmentsMap} {name : String} {value : ℚ} (assigned : row name = some value) :
    parameterValue experiment row name = value := by
  have replaced : ∀ (parameters : List ExperimentParameter) (filled : AssignmentsMap), filled name = some value →
      parameters.foldl replaceMissing filled name = some value := by
    intro parameters
    induction parameters with
    | nil => exact fun _ there => there
    | cons parameter rest inductionHypothesis =>
        exact fun filled there => inductionHypothesis _ (replaceMissing_of_some there parameter)
  rw [parameterValue, replaced _ _ assigned, Option.getD_some]

/-- A row with a combination is read as that combination. -/
theorem IsCombination.getAssignments_eq {assignments : AssignmentsMap}
    (combination : IsCombination experiment assignments) (kept : CategoricalKept experiment) :
    getAssignments experiment assignments = assignments := by
  have sameConditions : ∀ parameter ∈ allParameters experiment,
      parameterConditionsSatisfied parameter (valuesAsMap experiment assignments) =
        parameterConditionsSatisfied parameter assignments := by
    intro parameter isParameter
    rw [Bool.eq_iff_iff, conditionsSatisfied_iff, conditionsSatisfied_iff]
    apply forall₂_congr
    intro condition isCondition
    have isStored := (List.mem_filter.mp ((List.mem_insertionSort _).mp isParameter)).1
    obtain ⟨conditional, isConditional, named, _⟩ :=
      (kept.conditionsKnown parameter isStored).known condition isCondition
    obtain ⟨value, _, assigned⟩ := combination.conditionals conditional isConditional
    have isName : condition.name ∈ (allParameters experiment).map (·.name) ++ experiment.conditionalNames := by
      rw [← named]
      exact List.mem_append_right _ (List.mem_map_of_mem isConditional)
    rw [named] at assigned
    rw [valuesAsMap, if_pos isName, parameterValue_of_some assigned, assigned]
  funext name
  by_cases isConditional : name ∈ experiment.conditionalNames
  · rw [getAssignments, if_pos isConditional]
    obtain ⟨conditional, member, rfl⟩ := List.mem_map.mp isConditional
    obtain ⟨value, _, assigned⟩ := combination.conditionals conditional member
    rw [assigned, Option.getD_some]
  · rw [getAssignments, if_neg isConditional]
    split
    · rename_i found
      obtain ⟨parameter, isParameter, named⟩ := List.any_eq_true.mp found
      rw [Bool.and_eq_true, decide_eq_true_eq, sameConditions parameter isParameter] at named
      obtain ⟨enumIndex, _, assigned⟩ := combination.satisfied parameter isParameter named.2
      rw [named.1] at assigned
      rw [parameterValue_of_some assigned, assigned]
    · rename_i notFound
      symm
      by_cases isName : name ∈ (allParameters experiment).map (·.name)
      · obtain ⟨parameter, isParameter, rfl⟩ := List.mem_map.mp isName
        apply combination.unsatisfied parameter isParameter
        cases satisfied : parameterConditionsSatisfied parameter assignments with
        | false => rfl
        | true =>
            refine absurd (List.any_eq_true.mpr ⟨parameter, isParameter, ?_⟩) notFound
            rw [Bool.and_eq_true, decide_eq_true_eq, sameConditions parameter isParameter]
            exact ⟨rfl, satisfied⟩
      · exact combination.onlyNames name isName isConditional

theorem exists_other_active {parameter : ExperimentParameter} (twoValues : TwoValues parameter)
    (categorical : parameter.isCategorical = true) (enumIndex : Nat) :
    ∃ other ∈ activeIndices parameter, other ≠ enumIndex := by
  have distinct : (activeIndices parameter).Nodup :=
    List.Nodup.sublist (List.filter_sublist.map _) twoValues.distinct
  have two : 2 ≤ (activeIndices parameter).length := by
    rw [activeIndices, List.length_map]
    exact twoValues.two categorical
  by_contra allSame
  push Not at allSame
  have inside : (activeIndices parameter).toFinset ⊆ {enumIndex} := by
    intro other member
    exact Finset.mem_singleton.mpr (allSame other (List.mem_toFinset.mp member))
  have count := Finset.card_le_card inside
  rw [List.toFinset_card_of_nodup distinct, Finset.card_singleton] at count
  omega

theorem exists_itemsFor {parameters : List ExperimentParameter}
    (nonempty : ∀ parameter ∈ parameters, ∃ enumIndex, enumIndex ∈ activeIndices parameter) :
    ∃ items, ItemsFor parameters items := by
  induction parameters with
  | nil => exact ⟨[], .nil⟩
  | cons parameter rest inductionHypothesis =>
      obtain ⟨enumIndex, isActive⟩ := nonempty parameter List.mem_cons_self
      obtain ⟨items, itemsFor⟩ := inductionHypothesis fun other member => nonempty other (List.mem_cons_of_mem _ member)
      exact ⟨(parameter.name, enumIndex) :: items,
        .cons (mem_valuesForParameter.mpr ⟨rfl, enumIndex, isActive, rfl⟩) itemsFor⟩

/-- Items for the parameters with a given one for one of them. -/
theorem exists_itemsFor_with {parameters : List ExperimentParameter}
    (nonempty : ∀ parameter ∈ parameters, ∃ enumIndex, enumIndex ∈ activeIndices parameter)
    {parameter : ExperimentParameter} (member : parameter ∈ parameters) {enumIndex : Nat}
    (isActive : enumIndex ∈ activeIndices parameter) :
    ∃ items, ItemsFor parameters items ∧ (parameter.name, (enumIndex : ℚ)) ∈ items := by
  obtain ⟨front, back, rfl⟩ := List.append_of_mem member
  obtain ⟨frontItems, frontFor⟩ := exists_itemsFor fun other isOther => nonempty other (List.mem_append_left _ isOther)
  obtain ⟨backItems, backFor⟩ := exists_itemsFor fun other isOther =>
    nonempty other (List.mem_append_right _ (List.mem_cons_of_mem _ isOther))
  refine ⟨frontItems ++ (parameter.name, (enumIndex : ℚ)) :: backItems, ?_, by simp⟩
  exact List.rel_append frontFor (.cons (mem_valuesForParameter.mpr ⟨rfl, enumIndex, isActive, rfl⟩) backFor)

theorem exists_same_name {parameters : List ExperimentParameter} (repeated : ¬(parameters.map (·.name)).Nodup) :
    ∃ front middle back first second, parameters = front ++ first :: (middle ++ second :: back) ∧
      first.name = second.name := by
  induction parameters with
  | nil => exact absurd List.nodup_nil repeated
  | cons parameter rest inductionHypothesis =>
      rw [List.map_cons, List.nodup_cons, not_and_or, not_not] at repeated
      rcases repeated with isNamed | repeatedLater
      · obtain ⟨other, isOther, named⟩ := List.mem_map.mp isNamed
        obtain ⟨middle, back, rfl⟩ := List.append_of_mem isOther
        exact ⟨[], middle, back, parameter, other, rfl, named.symm⟩
      · obtain ⟨front, middle, back, first, second, rfl, named⟩ := inductionHypothesis repeatedLater
        exact ⟨parameter :: front, middle, back, first, second, rfl, named⟩

variable (serves : ServesUnseen experiment) (kept : CategoricalKept experiment)
  (categorical : ∀ parameter ∈ allParameters experiment, parameter.isCategorical = true)

include kept categorical in
theorem exists_active : ∀ parameter ∈ allParameters experiment, ∃ enumIndex, enumIndex ∈ activeIndices parameter := by
  intro parameter isParameter
  have isStored := (List.mem_filter.mp ((List.mem_insertionSort _).mp isParameter)).1
  obtain ⟨enumIndex, isActive, _⟩ :=
    exists_other_active (kept.twoValues parameter isStored) (categorical parameter isParameter) 0
  exact ⟨enumIndex, isActive⟩

include serves kept categorical in
/-- Of two parameters with one name, a combination has two items, and either can be the one that stays: the sampler does
    not see that the assignments are in use. -/
theorem distinctNames_of_serves : ((allParameters experiment).map (·.name)).Nodup := by
  have nonempty := exists_active kept categorical
  by_contra repeated
  obtain ⟨front, middle, back, first, second, parametersAre, sameName⟩ := exists_same_name repeated
  have firstMember : first ∈ allParameters experiment := by rw [parametersAre]; simp
  have secondMember : second ∈ allParameters experiment := by rw [parametersAre]; simp
  have secondStored := (List.mem_filter.mp ((List.mem_insertionSort _).mp secondMember)).1
  obtain ⟨firstIndex, firstActive⟩ := nonempty first firstMember
  obtain ⟨secondIndex, secondActive, apart⟩ :=
    exists_other_active (kept.twoValues second secondStored) (categorical second secondMember) firstIndex
  rw [parametersAre] at nonempty
  obtain ⟨frontItems, frontFor⟩ := exists_itemsFor fun other (isOther : other ∈ front) =>
    nonempty other (List.mem_append_left _ isOther)
  obtain ⟨restItems, restFor, secondItem⟩ := exists_itemsFor_with
    (fun other isOther => nonempty other (List.mem_append_right _ (List.mem_cons_of_mem _ isOther)))
    (List.mem_append_right middle List.mem_cons_self) secondActive
  have itemsFor : ItemsFor (allParameters experiment)
      (frontItems ++ (first.name, (firstIndex : ℚ)) :: restItems) := by
    rw [parametersAre]
    exact List.rel_append frontFor (.cons (mem_valuesForParameter.mpr ⟨rfl, firstIndex, firstActive, rfl⟩) restFor)
  have listed := mem_allCategoricalValueCombos.mpr ⟨_, itemsFor, rfl⟩
  generalize comboIs : (frontItems ++ (first.name, (firstIndex : ℚ)) :: restItems).toFinset = combo at listed
  have hasFirst : (first.name, (firstIndex : ℚ)) ∈ combo := by rw [← comboIs]; simp
  have hasSecond : (first.name, (secondIndex : ℚ)) ∈ combo := by rw [← comboIs, sameName]; simp [secondItem]
  obtain ⟨firstOrder, firstFront, firstLast⟩ := exists_order hasFirst
  obtain ⟨secondOrder, secondFront, secondLast⟩ := exists_order hasSecond
  obtain ⟨firstCombination, _⟩ := serves.first (mem_unsampled_nil.mpr listed) firstOrder
  obtain ⟨secondCombination, _⟩ := serves.first (mem_unsampled_nil.mpr listed) secondOrder
  have firstAssigned : assignmentsOfItems (firstOrder.toList combo) first.name = some (firstIndex : ℚ) := by
    rw [firstLast, assignmentsOfItems_snoc]
    exact AssignmentsMap.set_same _ _ _
  have secondAssigned : assignmentsOfItems (secondOrder.toList combo) first.name = some (secondIndex : ℚ) := by
    rw [secondLast, assignmentsOfItems_snoc]
    exact AssignmentsMap.set_same _ _ _
  generalize assignmentsOfItems (secondOrder.toList combo) = secondAssignments at secondCombination secondAssigned
  generalize firstIs : assignmentsOfItems (firstOrder.toList combo) = firstAssignments
    at firstCombination firstAssigned
  have readBack := firstCombination.getAssignments_eq kept
  have different : (firstIndex : ℚ) ≠ (secondIndex : ℚ) := fun same => apart (Rat.natCast_injective same).symm
  have free : combo ∈ unsampled experiment [firstAssignments] := by
    rw [unsampled, Finset.mem_sdiff, List.mem_toFinset, List.mem_toFinset]
    refine ⟨listed, ?_⟩
    rw [List.map_singleton, List.mem_singleton, readBack]
    intro same
    rw [same, mem_frozenItems firstCombination.supported, firstAssigned, Option.some.injEq] at hasSecond
    exact different hasSecond
  have unseen := (serves.first free firstOrder).2 ⟨secondAssignments, secondCombination, by
    intro row isRow
    rw [List.mem_singleton.mp isRow, readBack]
    intro same
    rw [same, secondAssigned, Option.some.injEq] at firstAssigned
    exact different firstAssigned.symm⟩
  rw [firstIs] at unseen
  exact unseen firstAssignments (List.mem_singleton_self _) readBack

include serves kept categorical in
/-- Whoever serves the unseen combinations knows each one in the form in which it is enumerated. -/
theorem combosFit_of_serves : CombosFit experiment := by
  have nonempty := exists_active kept categorical
  have distinct := distinctNames_of_serves serves kept categorical
  -- each map that picks values is served when there are no rows
  have valid : ∀ {assignments}, Picks experiment assignments → IsCombination experiment assignments := by
    intro assignments picks
    obtain ⟨order, _⟩ : ∃ order : SetOrder, True :=
      ⟨⟨Finset.toList, fun combo => combo.nodup_toList, fun combo => combo.toList_toFinset⟩, trivial⟩
    have served := (serves.first (mem_unsampled_nil.mpr picks.listed) order).1
    rw [assignmentsOfItems_frozenItems order picks.supported] at served
    exact served
  have pick : ∀ parameter ∈ allParameters experiment, ∀ enumIndex : Nat, enumIndex ∈ activeIndices parameter →
      ∃ assignments, Picks experiment assignments ∧ assignments parameter.name = some (enumIndex : ℚ) := by
    intro parameter isParameter enumIndex isActive
    obtain ⟨items, itemsFor, isItem⟩ := exists_itemsFor_with nonempty isParameter isActive
    obtain ⟨picks, _, assigned⟩ := itemsFor.picks distinct
    exact ⟨_, picks, assigned _ isItem⟩
  constructor
  · exact distinct
  · intro conditional isConditional
    obtain ⟨items, itemsFor⟩ := exists_itemsFor nonempty
    obtain ⟨picks, _⟩ := itemsFor.picks distinct
    obtain ⟨value, _, assigned⟩ := (valid picks).conditionals conditional isConditional
    have named : conditional.name ∈ (allParameters experiment).map (·.name) := by
      by_contra unknown
      rw [picks.onlyNames _ unknown] at assigned
      cases assigned
    obtain ⟨parameter, isParameter, isName⟩ := List.mem_map.mp named
    refine ⟨parameter, isParameter, isName, ?_⟩
    intro enumIndex isActive
    obtain ⟨other, otherPicks, otherAssigned⟩ := pick parameter isParameter enumIndex isActive
    obtain ⟨otherValue, isValue, same⟩ := (valid otherPicks).conditionals conditional isConditional
    rw [← isName, otherAssigned, Option.some.injEq] at same
    exact ⟨otherValue, isValue, (Rat.natCast_injective same).symm⟩
  · intro parameter isParameter condition isCondition other isOther isName enumIndex isActive
    obtain ⟨assignments, picks, assigned⟩ := pick other isOther enumIndex isActive
    obtain ⟨ownIndex, _, ownAssigned⟩ := picks.picked parameter isParameter
    cases satisfied : parameterConditionsSatisfied parameter assignments with
    | false =>
        rw [(valid picks).unsatisfied parameter isParameter satisfied] at ownAssigned
        cases ownAssigned
    | true =>
        rw [isName] at assigned
        exact conditionsSatisfied_iff.mp satisfied condition isCondition _ assigned

end Serves

/-- In every experiment that accepted requests lead to, with categorical parameters only, the sampler serves an unseen
    combination while one remains, exactly if the combinations it lists fit. -/
theorem serves_unseen_iff {sections : OtherSections} {className : String} {body : JsonObject} {created : ExperimentMeta}
    (accepted : createExperiment sections className body = .ok created) {updates : List (JsonObject × ExperimentMeta)}
    (updated : AcceptedUpdates sections created updates) :
    ∀ experiment ∈ Trace.reached created updates,
      (∀ parameter ∈ allParameters experiment, parameter.isCategorical = true) →
        (ServesUnseen experiment ↔ CombosFit experiment) := by
  have kept : ∀ experiment ∈ Trace.reached created updates, CategoricalKept experiment :=
    Trace.every_invariant (fun _ _ _ before acceptedUpdate => before.step acceptedUpdate)
      (create_categoricalKept accepted) updated
  intro experiment member categorical
  have keptHere := kept experiment member
  exact ⟨fun serves => combosFit_of_serves serves keptHere categorical, fun fit => fit.servesUnseen keptHere⟩

/-- The parameters `x` and `y` with the values `a` and `b`, and a conditional if there is to be one. -/
def twoByTwoJson (conditionals : List Json) : JsonObject :=
  [("conditionals", .array conditionals),
    ("parameters", .array [parameterJson "x", parameterJson "y"])]
where
  parameterJson (name : String) : Json :=
    .object [("name", .string name), ("type", .string "categorical"),
      ("categorical_values", .array [.string "a", .string "b"])]

def twoByTwo (conditionals : List ExperimentConditional) : ExperimentMeta where
  conditionals := conditionals
  allParametersUnsorted := [parameter "x", parameter "y"]
where
  parameter (name : String) : ExperimentParameter :=
    { name := name, paramType := .categorical, allCategoricalValues := [⟨"a", 1, false⟩, ⟨"b", 2, false⟩] }

/-- Two parameters with two values each: four combinations are served before one comes again. -/
theorem serves_unseen_two_by_two :
    createExperiment permissiveSections "Experiment" (twoByTwoJson []) = .ok (twoByTwo []) ∧
      ServesUnseen (twoByTwo []) := by
  have accepted : createExperiment permissiveSections "Experiment" (twoByTwoJson []) = .ok (twoByTwo []) := by
    decide +kernel
  have updated : AcceptedUpdates permissiveSections (twoByTwo []) [] := trivial
  have categorical : ∀ parameter ∈ allParameters (twoByTwo []), parameter.isCategorical = true := by decide +kernel
  refine ⟨accepted, (serves_unseen_iff accepted updated _ (List.mem_singleton_self _) categorical).mpr ?_⟩
  constructor
  · decide +kernel
  · intro conditional isConditional
    cases isConditional
  · decide +kernel

/-- With a conditional, no suggestion is a combination: the conditional is not assigned. -/
theorem conditional_not_served : ∃ body created,
    createExperiment permissiveSections "Experiment" body = .ok created ∧
      (∀ parameter ∈ allParameters created, parameter.isCategorical = true) ∧ ¬ServesUnseen created := by
  have accepted : createExperiment permissiveSections "Experiment"
      (twoByTwoJson [.object [("name", .string "c"), ("values", .array [.string "a", .string "b"])]]) =
        .ok (twoByTwo [⟨"c", [⟨"a", 1⟩, ⟨"b", 2⟩]⟩]) := by
    decide +kernel
  have categorical : ∀ parameter ∈ allParameters (twoByTwo [⟨"c", [⟨"a", 1⟩, ⟨"b", 2⟩]⟩]),
      parameter.isCategorical = true := by decide +kernel
  refine ⟨_, _, accepted, categorical, ?_⟩
  intro serves
  have fit := combosFit_of_serves serves (create_categoricalKept accepted) categorical
  obtain ⟨parameter, isParameter, named, _⟩ := fit.conditionalsNamed _ (List.mem_singleton_self _)
  revert parameter
  decide +kernel

end Zigopt.Suggestion
