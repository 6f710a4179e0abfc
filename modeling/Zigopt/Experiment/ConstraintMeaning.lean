/-
Module: Zigopt.Experiment.ConstraintMeaning
Layer: Experiment
Purpose: The validator of assignments, the functions of the optimizer and the halfspaces say the same about every
  assignment of the parameters; and when the stored constraints are well formed as well.
Main exports: ConstraintsAgree, constraints_wellFormed_iff
-/
import Zigopt.Experiment.ConstraintsRead
import Zigopt.Lib.Rows

namespace Zigopt.Experiment

open Raising Assignments LinearForm

/-! ### What a constraint says -/

/-- The values of the parameters, in their order. -/
def valuesOf (assignments : AssignmentsMap) (parameters : List ExperimentParameter) : List ℚ :=
  parameters.map fun parameter => (assignments parameter.name).getD 0

/-- `weights . x >= rhs`. -/
def ConstraintFunction.Holds (function : ConstraintFunction) (values : List ℚ) : Prop :=
  function.rhs ≤ dot function.weights values

/-- The row of `A x <= b`, where the last column is `-b`. -/
def Halfspace.Holds (row : Halfspace) (values : List ℚ) : Prop :=
  dot row.weights values ≤ -row.offset

/-- The three encodings of the constraints agree on every assignment of all parameters, and the other rows of the
    matrix are the bounds of the constrained parameters. -/
def ConstraintsAgree (experiment : ExperimentMeta) : Prop :=
  ∃ functions halfspaces, parseExperimentConstraintsToFuncList experiment = .ok functions ∧
    parseConstraintsToHalfspaces experiment.constraints (allParameters experiment) = .ok halfspaces ∧
    ∀ assignments : AssignmentsMap,
      (∀ parameter ∈ allParameters experiment, (assignments parameter.name).isSome = true) →
        let constrained := constrainedParameters experiment.constraints (allParameters experiment)
        (((experiment.constraints.forM fun constraint => constraintSatisfied constraint assignments) = .ok ()) ↔
          ∀ function ∈ functions, function.Holds (valuesOf assignments (allParameters experiment))) ∧
        ((∀ function ∈ functions, function.Holds (valuesOf assignments (allParameters experiment))) ↔
          ∀ row ∈ halfspaces.take experiment.constraints.length, row.Holds (valuesOf assignments constrained)) ∧
        ((∀ row ∈ halfspaces.drop experiment.constraints.length, row.Holds (valuesOf assignments constrained)) ↔
          ∀ parameter ∈ constrained, ∀ value, assignments parameter.name = some value →
            parameter.bounds.minimum ≤ value ∧ value ≤ parameter.bounds.maximum)

/-- The left side of a constraint. -/
def leftSide (assignments : AssignmentsMap) (terms : List Term) : ℚ :=
  (terms.map fun term => term.coeff * (assignments term.name).getD 0).sum

/-- What the constraint says of the assignments. -/
def ConstraintHolds (constraint : ExperimentConstraint) (assignments : AssignmentsMap) : Prop :=
  if constraint.type = "less_than" then leftSide assignments constraint.terms ≤ constraint.rhs
  else constraint.rhs ≤ leftSide assignments constraint.terms

section Meaning

variable {assignments : AssignmentsMap} {constraint : ExperimentConstraint} {parameters : List ExperimentParameter}

/-- The sum goes on from what was summed before. -/
theorem constraintSum_from {terms : List Term}
    (assigned : ∀ term ∈ terms, (assignments term.name).isSome = true) (start : ℚ) :
    terms.foldlM (fun sum term =>
      match assignments term.name with
      | some value => (.ok (sum + term.coeff * value) : Except String ℚ)
      | none => .error term.name) start = .ok (start + leftSide assignments terms) := by
  induction terms generalizing start with
  | nil => simp [leftSide, pure, Except.pure]
  | cons term terms inductionHypothesis =>
      rw [List.forall_mem_cons] at assigned
      obtain ⟨value, isValue⟩ := Option.isSome_iff_exists.mp assigned.1
      rw [List.foldlM_cons, isValue, ok_bind, inductionHypothesis assigned.2]
      simp [leftSide, isValue, add_assoc]

theorem constraintSum_eq {terms : List Term} (assigned : ∀ term ∈ terms, (assignments term.name).isSome = true) :
    constraintSum assignments terms = .ok (leftSide assignments terms) := by
  exact (constraintSum_from assigned 0).trans (by rw [zero_add])

/-- The types that a constraint can have. -/
def HasType (constraint : ExperimentConstraint) : Prop :=
  constraint.type = "less_than" ∨ constraint.type = "greater_than"

theorem constraintSatisfied_iff (typed : HasType constraint)
    (assigned : ∀ term ∈ constraint.terms, (assignments term.name).isSome = true) :
    constraintSatisfied constraint assignments = .ok () ↔ ConstraintHolds constraint assignments := by
  unfold constraintSatisfied ConstraintHolds
  rw [constraintSum_eq assigned]
  rcases typed with isLess | isGreater
  · simp [isLess]
  · simp [isGreater]

theorem signOf_eq (typed : HasType constraint) :
    ∃ sign, signOf constraint = .ok sign ∧ ∀ assignments,
      (sign * constraint.rhs ≤ sign * leftSide assignments constraint.terms ↔
        ConstraintHolds constraint assignments) := by
  unfold signOf ConstraintHolds
  rcases typed with isLess | isGreater
  · refine ⟨-1, if_pos isLess, fun assignments => ?_⟩
    rw [if_pos isLess, neg_one_mul, neg_one_mul, neg_le_neg_iff]
  · have notLess : constraint.type ≠ "less_than" := by
      rw [isGreater]
      decide
    refine ⟨1, by rw [if_neg notLess, if_pos isGreater], fun assignments => ?_⟩
    rw [if_neg notLess, one_mul, one_mul]

theorem coefficientOf_term {terms : List Term} (distinct : (terms.map (·.name)).Nodup) {term : Term}
    (isTerm : term ∈ terms) : coefficientOf terms term.name = some term.coeff := by
  have keyed : Rows.Keyed Term.name terms.reverse := by
    rw [Rows.Keyed, List.map_reverse, List.nodup_reverse]
    exact distinct
  rw [coefficientOf, (Rows.findKey_iff keyed).mpr ⟨List.mem_reverse.mpr isTerm, rfl⟩, Option.map_some]

theorem coefficientOf_other {terms : List Term} {name : String} (notTerm : name ∉ terms.map (·.name)) :
    coefficientOf terms name = none := by
  rw [coefficientOf, Option.map_eq_none_iff, List.find?_eq_none]
  intro term isTerm isName
  exact notTerm (List.mem_map.mpr ⟨term, List.mem_reverse.mp isTerm, of_decide_eq_true isName⟩)

/-- The row of a constraint over parameters that include those of its terms. -/
theorem dot_coefficients (distinctTerms : (constraint.terms.map (·.name)).Nodup)
    (distinctNames : (parameters.map (·.name)).Nodup)
    (included : ∀ term ∈ constraint.terms, term.name ∈ parameters.map (·.name)) :
    dot (parameters.map fun parameter => (coefficientOf constraint.terms parameter.name).getD 0)
        (valuesOf assignments parameters) = leftSide assignments constraint.terms := by
  have row : dot ((parameters.map (·.name)).map fun name => (coefficientOf constraint.terms name).getD 0)
      ((parameters.map (·.name)).map fun name => (assignments name).getD 0) =
        (constraint.terms.map fun term => term.coeff * (assignments term.name).getD 0).sum := by
    refine dot_of_terms distinctTerms distinctNames included ?_ ?_ _
    · intro term isTerm
      rw [coefficientOf_term distinctTerms isTerm, Option.getD_some]
    · intro name notTerm
      rw [coefficientOf_other notTerm, Option.getD_none]
  rw [List.map_map, List.map_map] at row
  exact row

theorem varTypeOf_ok {terms : List Term}
    (numerical : ∀ parameter ∈ parameters, parameter.name ∈ terms.map (·.name) → parameter.isCategorical = false) :
    ∃ varType, varTypeOf terms parameters = .ok varType := by
  unfold varTypeOf
  generalize (none : Option ExperimentParameterType) = start
  induction parameters generalizing start with
  | nil => exact ⟨start, rfl⟩
  | cons parameter rest inductionHypothesis =>
      rw [List.forall_mem_cons] at numerical
      rw [List.foldlM_cons]
      by_cases named : parameter.name ∈ terms.map (·.name)
      · have notCategorical := numerical.1 named
        unfold ExperimentParameter.isCategorical at notCategorical
        split
        · cases kind : parameter.paramType with
          | double => exact inductionHypothesis numerical.2 _
          | int => exact inductionHypothesis numerical.2 _
          | categorical =>
              rw [kind] at notCategorical
              exact absurd notCategorical (by decide)
        · exact inductionHypothesis numerical.2 _
      · rw [coefficientOf_other named]
        exact inductionHypothesis numerical.2 start

/-- Facts about a stored constraint that its encodings rely on. -/
structure Encodable (parameters : List ExperimentParameter) (constraint : ExperimentConstraint) : Prop where
  typed : HasType constraint
  distinct : (constraint.terms.map (·.name)).Nodup
  included : ∀ term ∈ constraint.terms, term.name ∈ parameters.map (·.name)
  numerical : ∀ parameter ∈ parameters, parameter.name ∈ constraint.terms.map (·.name) →
    parameter.isCategorical = false

/-- The function of the optimizer says what the constraint says. -/
theorem constraintFunction_ok (distinctNames : (parameters.map (·.name)).Nodup)
    (encodable : Encodable parameters constraint) :
    ∃ function, constraintFunction parameters constraint = .ok function ∧
      ∀ assignments, function.Holds (valuesOf assignments parameters) ↔ ConstraintHolds constraint assignments := by
  obtain ⟨varType, isVarType⟩ := varTypeOf_ok encodable.numerical
  obtain ⟨sign, isSign, meaning⟩ := signOf_eq encodable.typed
  refine ⟨{ weights := (parameters.map fun parameter =>
              (coefficientOf constraint.terms parameter.name).getD 0).map (sign * ·)
            rhs := sign * constraint.rhs, varType := varType }, ?_, ?_⟩
  · simp only [constraintFunction, isVarType, isSign, ok_bind]
    rfl
  · intro assignments
    rw [← meaning assignments, ConstraintFunction.Holds, dot_scale,
      dot_coefficients encodable.distinct distinctNames encodable.included]

/-- The row of the matrix says what the constraint says. -/
theorem constraintHalfspace_ok (distinctNames : (parameters.map (·.name)).Nodup)
    (encodable : Encodable parameters constraint) :
    ∃ row, constraintHalfspace parameters constraint = .ok row ∧
      ∀ assignments, row.Holds (valuesOf assignments parameters) ↔ ConstraintHolds constraint assignments := by
  obtain ⟨sign, isSign, meaning⟩ := signOf_eq encodable.typed
  refine ⟨{ weights := parameters.map fun parameter =>
              -sign * (coefficientOf constraint.terms parameter.name).getD 0
            offset := sign * constraint.rhs }, ?_, ?_⟩
  · simp only [constraintHalfspace, isSign, ok_bind]
    rfl
  · intro assignments
    have scaled : (parameters.map fun parameter =>
        -sign * (coefficientOf constraint.terms parameter.name).getD 0) =
          (parameters.map fun parameter => (coefficientOf constraint.terms parameter.name).getD 0).map (-sign * ·) := by
      rw [List.map_map]
      rfl
    rw [← meaning assignments, Halfspace.Holds, scaled, dot_scale,
      dot_coefficients encodable.distinct distinctNames encodable.included, neg_mul, neg_le_neg_iff]

/-- The two rows of a column say that the value is within the bounds. -/
theorem boundsHalfspaces_iff {index : ℕ} {parameter : ExperimentParameter} {value : ℚ}
    (isParameter : parameters[index]? = some parameter) (isValue : assignments parameter.name = some value) :
    (∀ row ∈ boundsHalfspaces parameters.length index parameter, row.Holds (valuesOf assignments parameters)) ↔
      parameter.bounds.minimum ≤ value ∧ value ≤ parameter.bounds.maximum := by
  have atIndex : (valuesOf assignments parameters)[index]? = some value := by
    rw [valuesOf, List.getElem?_map, isParameter, Option.map_some, isValue, Option.getD_some]
  have sameLength : parameters.length = (valuesOf assignments parameters).length := by
    rw [valuesOf, List.length_map]
  simp only [boundsHalfspaces, List.forall_mem_cons, List.not_mem_nil, false_implies, implies_true, and_true,
    Halfspace.Holds]
  rw [sameLength, dot_unit atIndex, dot_unit atIndex, neg_one_mul, one_mul, neg_le_neg_iff, neg_neg]

end Meaning

/-! ### All constraints -/

theorem forall_iff_of_forall₂ {α β : Type} {holds : α → Prop} {encoded : β → Prop} {items : List α} {codes : List β}
    (each : List.Forall₂ (fun item code => encoded code ↔ holds item) items codes) :
    (∀ code ∈ codes, encoded code) ↔ ∀ item ∈ items, holds item := by
  constructor
  · intro allEncoded item isItem
    obtain ⟨code, isCode, same⟩ := exists_answer each isItem
    exact same.mp (allEncoded code isCode)
  · intro allHold code isCode
    obtain ⟨item, isItem, same⟩ := exists_item each isCode
    exact same.mpr (allHold item isItem)

section Experiment

variable {experiment : ExperimentMeta}

/-- A constraint is encoded over the constrained parameters as well. -/
theorem encodable_constrained {constraints : List ExperimentConstraint} {parameters : List ExperimentParameter}
    {constraint : ExperimentConstraint} (isConstraint : constraint ∈ constraints)
    (encodable : Encodable parameters constraint) :
    Encodable (constrainedParameters constraints parameters) constraint where
  typed := encodable.typed
  distinct := encodable.distinct
  included := by
    intro term isTerm
    obtain ⟨parameter, isParameter, isName⟩ := List.mem_map.mp (encodable.included term isTerm)
    have isConstrained : term.name ∈ constrainedParameterNames constraints :=
      List.mem_flatMap.mpr ⟨constraint, isConstraint, List.mem_map_of_mem isTerm⟩
    rw [← isName] at isConstrained ⊢
    exact List.mem_map_of_mem (List.mem_filter.mpr ⟨isParameter, decide_eq_true isConstrained⟩)
  numerical := fun parameter isParameter => encodable.numerical parameter (List.mem_filter.mp isParameter).1

/-- The rows behind those of the constraints are the bounds. -/
theorem bounds_iff {assignments : AssignmentsMap} {parameters : List ExperimentParameter}
    (assigned : ∀ parameter ∈ parameters, (assignments parameter.name).isSome = true) :
    (∀ row ∈ parameters.zipIdx.flatMap fun column => boundsHalfspaces parameters.length column.2 column.1,
        row.Holds (valuesOf assignments parameters)) ↔
      ∀ parameter ∈ parameters, ∀ value, assignments parameter.name = some value →
        parameter.bounds.minimum ≤ value ∧ value ≤ parameter.bounds.maximum := by
  constructor
  · intro rows parameter isParameter value isValue
    obtain ⟨index, atIndex⟩ := List.mem_iff_getElem?.mp isParameter
    rw [← boundsHalfspaces_iff atIndex isValue]
    intro row isRow
    exact rows row (List.mem_flatMap.mpr ⟨(parameter, index), List.mem_zipIdx_iff_getElem?.mpr atIndex, isRow⟩)
  · intro bounds row isRow
    obtain ⟨⟨parameter, index⟩, isColumn, ofColumn⟩ := List.mem_flatMap.mp isRow
    have atIndex := List.mem_zipIdx_iff_getElem?.mp isColumn
    have isParameter := List.mem_of_getElem? atIndex
    obtain ⟨value, isValue⟩ := Option.isSome_iff_exists.mp (assigned parameter isParameter)
    exact (boundsHalfspaces_iff atIndex isValue).mpr (bounds parameter isParameter value isValue) row ofColumn

/-- The encodings agree. -/
theorem constraintsAgree_of_encodable (distinctNames : ((allParameters experiment).map (·.name)).Nodup)
    (encodable : ∀ constraint ∈ experiment.constraints, Encodable (allParameters experiment) constraint) :
    ConstraintsAgree experiment := by
  have distinctConstrained :
      ((constrainedParameters experiment.constraints (allParameters experiment)).map (·.name)).Nodup :=
    distinctNames.sublist (List.filter_sublist.map _)
  obtain ⟨functions, readFunctions, eachFunction⟩ := mapM_of_each fun constraint isConstraint =>
    constraintFunction_ok distinctNames (encodable constraint isConstraint)
  obtain ⟨rows, readRows, eachRow⟩ := mapM_of_each fun constraint isConstraint =>
    constraintHalfspace_ok distinctConstrained (encodable_constrained isConstraint (encodable constraint isConstraint))
  refine ⟨functions,
    rows ++ (constrainedParameters experiment.constraints (allParameters experiment)).zipIdx.flatMap fun column =>
      boundsHalfspaces (constrainedParameters experiment.constraints (allParameters experiment)).length column.2
        column.1, readFunctions, ?_, ?_⟩
  · simp only [parseConstraintsToHalfspaces, readRows, ok_bind]
    rfl
  · intro assignments assigned constrained
    have functionsIff := forall_iff_of_forall₂ (eachFunction.imp fun _ _ same => same assignments)
    have rowsIff := forall_iff_of_forall₂ (eachRow.imp fun _ _ same => same assignments)
    have sameLength : rows.length = experiment.constraints.length := eachRow.length_eq.symm
    refine ⟨?_, ?_, ?_⟩
    · rw [functionsIff, forM_eq_ok]
      apply forall₂_congr
      intro constraint isConstraint
      apply constraintSatisfied_iff (encodable constraint isConstraint).typed
      intro term isTerm
      obtain ⟨parameter, isParameter, isName⟩ := List.mem_map.mp ((encodable constraint isConstraint).included term isTerm)
      rw [← isName]
      exact assigned parameter isParameter
    · rw [functionsIff, ← sameLength, List.take_left, rowsIff]
    · rw [← sameLength, List.drop_left]
      exact bounds_iff fun parameter isConstrained => assigned parameter (List.mem_filter.mp isConstrained).1

end Experiment

/-! ### Accepted requests -/

section Created

variable {sections : OtherSections} {maxVariables : ℕ} {findInteriorPoint : List Halfspace → Bool} {className : String}
  {body : JsonObject} {experiment : ExperimentMeta}

theorem createExperiment_constraints
    (accepted : createExperiment (constrainedSections sections maxVariables findInteriorPoint) className body =
      .ok experiment) :
    getConstraintsFromJson maxVariables body experiment.allParametersUnsorted = .ok experiment.constraints ∧
      hasFeasibleConstraints findInteriorPoint experiment = .ok () := by
  simp only [createExperiment, makeExperimentMetaFromJson, bind_eq_ok, pure_eq_ok] at accepted
  rcases accepted with ⟨_, _, _, ⟨_, _, _, _, _, _, _, _, constraints, read, _, _, _, _, rfl⟩, _, verified, rfl⟩
  refine ⟨read, ?_⟩
  simp only [constrainedSections, checkedSections, verifyExperimentAcceptability, bind_eq_ok] at verified
  obtain ⟨_, feasible, _⟩ := verified
  exact feasible

/-- The matrix could be made, so every constraint has one of the two types. -/
theorem hasType_of_feasible (feasible : hasFeasibleConstraints findInteriorPoint experiment = .ok ())
    {constraint : ExperimentConstraint} (isConstraint : constraint ∈ experiment.constraints) : HasType constraint := by
  unfold hasFeasibleConstraints at feasible
  rw [if_neg (List.ne_nil_of_mem isConstraint)] at feasible
  cases made : parseConstraintsToHalfspaces experiment.constraints (allParameters experiment) with
  | error failure =>
      rw [made] at feasible
      cases feasible
  | ok halfspaces =>
      simp only [parseConstraintsToHalfspaces, bind_eq_ok] at made
      obtain ⟨rows, read, _⟩ := made
      obtain ⟨row, _, isRow⟩ := exists_answer (mapM_eq_ok.mp read) isConstraint
      simp only [constraintHalfspace, bind_eq_ok] at isRow
      obtain ⟨sign, isSign, _⟩ := isRow
      unfold signOf at isSign
      unfold HasType
      split at isSign
      · rename_i isLess
        exact .inl isLess
      · split at isSign
        · rename_i isGreater
          exact .inr isGreater
        · cases isSign

/-- The parameters of a new experiment are all active. -/
theorem mem_allParameters_created {experimentType : ExperimentType} {conditionals : List ExperimentConditional}
    (created : ParametersCreated experimentType conditionals (requestedParameters body)
      experiment.allParametersUnsorted) {parameter : ExperimentParameter} :
    parameter ∈ allParameters experiment ↔ parameter ∈ experiment.allParametersUnsorted := by
  rw [mem_allParameters, and_iff_left_iff_imp]
  intro isParameter
  obtain ⟨json, _, accepted⟩ := exists_item created.created isParameter
  obtain ⟨_, _, _, notDeleted, _⟩ := setExperimentParameterFromJson_ok accepted
  exact notDeleted

theorem constraintsAgree_created
    (accepted : createExperiment (constrainedSections sections maxVariables findInteriorPoint) className body =
      .ok experiment) : ConstraintsAgree experiment := by
  have created := setExperimentParameterListFromJson_ok (createExperiment_ok accepted)
  obtain ⟨read, feasible⟩ := createExperiment_constraints accepted
  have reads := getConstraintsFromJson_ok read
  apply constraintsAgree_of_encodable (allParameters_distinct created.distinct)
  intro constraint isConstraint
  obtain ⟨json, _, constraintRead⟩ := exists_item reads isConstraint
  refine ⟨hasType_of_feasible feasible isConstraint, constraintRead.distinct, ?_, ?_⟩
  · intro term isTerm
    obtain ⟨parameter, isParameter, isName⟩ := known_of_read constraintRead term isTerm
    exact List.mem_map.mpr ⟨parameter, (mem_allParameters_created created).mpr isParameter, isName⟩
  · intro parameter isActive named
    exact (plain_of_read created.distinct constraintRead parameter ((mem_allParameters_created created).mp isActive)
      named).1

/-- The constraints of an accepted request are well formed and mean the same everywhere exactly if no name hides the
    kind of its parameter. -/
theorem constraints_wellFormed_iff
    (accepted : createExperiment (constrainedSections sections maxVariables findInteriorPoint) className body =
      .ok experiment) :
    ((∀ constraint ∈ experiment.constraints, WellFormed experiment.allParametersUnsorted constraint) ∧
      ConstraintsAgree experiment) ↔ UnpaddedKinds body := by
  have created := setExperimentParameterListFromJson_ok (createExperiment_ok accepted)
  have reads := getConstraintsFromJson_ok (createExperiment_constraints accepted).1
  rw [and_iff_left (constraintsAgree_created accepted), ← oneKind_iff created reads]
  apply forall₂_congr
  intro constraint isConstraint
  obtain ⟨json, _, constraintRead⟩ := exists_item reads isConstraint
  exact ⟨WellFormed.oneKind, wellFormed_of_read created.distinct constraintRead⟩

end Created

/-- A request with the double parameters `x` and `y`, the int parameter `n` and the constraint that two terms of weight 1
    are at least 0 together. -/
def requestConstraining (first second : String) : JsonObject :=
  [("name", .string "an experiment"),
    ("parameters", .array [doubleParameterJson "x", doubleParameterJson "y",
      .object [("name", .string "n"), ("type", .string "int"),
        ("bounds", .object [("min", .number 0), ("max", .number 10)]), ("default_value", .number 0)]]),
    ("linear_constraints", .array [.object [("type", .string "greater_than"),
      ("terms", .array [term first, term second]), ("threshold", .number 0)]])]
where
  term (name : String) : Json := .object [("name", .string name), ("weight", .number 1)]

/-- The experiment as it is stored. -/
def experimentConstraining (first second : String) : ExperimentMeta where
  allParametersUnsorted :=
    [doubleParameter "x" false, doubleParameter "y" false,
      { name := "n", bounds := ⟨0, 10⟩, paramType := .int, replacementValueIfMissing := some 0 }]
  constraints := [{ type := "greater_than", terms := [⟨first, 1⟩, ⟨second, 1⟩], rhs := 0 }]

/-- A constraint on two double parameters, beside which there is an int one. -/
theorem constraints_wellFormed_doubles :
    ((∀ constraint ∈ (experimentConstraining "x" "y").constraints,
        WellFormed (experimentConstraining "x" "y").allParametersUnsorted constraint) ∧
      ConstraintsAgree (experimentConstraining "x" "y")) ↔ UnpaddedKinds (requestConstraining "x" "y") := by
  have accepted : createExperiment (constrainedSections permissiveSections 10 fun _ => true) "Experiment"
      (requestConstraining "x" "y") = .ok (experimentConstraining "x" "y") := by
    decide +kernel
  exact constraints_wellFormed_iff accepted

/-- The constraint of ` x` and `n` is accepted, and mixes a double parameter with an int one. -/
theorem constraints_mixed : ¬∀ (sections : OtherSections) (maxVariables : ℕ)
    (findInteriorPoint : List Halfspace → Bool) (className : String) (body : JsonObject) (experiment : ExperimentMeta),
    createExperiment (constrainedSections sections maxVariables findInteriorPoint) className body = .ok experiment →
      (∀ constraint ∈ experiment.constraints, WellFormed experiment.allParametersUnsorted constraint) ∧
        ConstraintsAgree experiment := by
  intro supposed
  have accepted : createExperiment (constrainedSections permissiveSections 10 fun _ => true) "Experiment"
      (requestConstraining " x" "n") = .ok (experimentConstraining "x" "n") := by
    decide +kernel
  have oneKind := ((supposed _ _ _ _ _ _ accepted).1 _ List.mem_cons_self).oneKind
  have sameKind := oneKind (doubleParameter "x" false) (by decide)
    { name := "n", bounds := ⟨0, 10⟩, paramType := .int, replacementValueIfMissing := some 0 } (by decide)
    (by decide) (by decide)
  cases sameKind

end Zigopt.Experiment
