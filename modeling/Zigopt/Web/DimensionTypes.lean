/-
Module: Zigopt.Web.DimensionTypes
Layer: Web
Purpose: What the passes over the dimensions do to each of them: its data stay, a numeric one is declared so or has only
  numbers, and a categorical one knows all its values, so that its ticks are right.
Main exports: typed_sameData, typed_numeric, typed_categorical, ticked_right, typed_perm, fillTickVals_perm
-/
import Zigopt.Lib.Raising
import Zigopt.Web.Dimensions

namespace Zigopt.Web

open Raising

/-! ### What is asked of the types -/

/-- What a numeric dimension may hold. -/
def Value.isNumeric (value : Value) : Bool := value.isNumber || !value.isDefinedAndNotNull

/-- A categorical dimension: its values are plotted at the positions of their texts, and apart from each other. -/
structure TicksRight (realm : Realm) (dimension : Dimension) (ticktext : List String) (plotlyValues : List ℤ) :
    Prop where
  aligned : plotlyValues.length = dimension.values.length
  text : ∀ (run : ℕ) (value : Value), dimension.values[run]? = some value →
    ∃ position : ℕ, plotlyValues[run]? = some (position : ℤ) ∧ ticktext[position]? = some (realm.toText value)
  apart : ∀ (run other : ℕ) (value otherValue : Value), dimension.values[run]? = some value →
    dimension.values[other]? = some otherValue → value ≠ otherValue → plotlyValues[run]? ≠ plotlyValues[other]?

/-! ### The passes, one dimension at a time -/

theorem eachRun_eq_map (change : Dimension → Value → Dimension) (dimensions : List Dimension) (runs : List Value) :
    eachRun change dimensions runs = dimensions.map fun dimension => runs.foldl change dimension := by
  unfold eachRun
  induction runs generalizing dimensions with
  | nil => simp
  | cons run runs inductionHypothesis =>
      rw [List.foldl_cons, inductionHypothesis, List.map_map]
      rfl

/-- Taking the items apart, changing some and putting them together again leaves them in another order. -/
theorem filter_map_perm {α : Type} (property : α → Bool) (change : α → α) (items : List α) :
    ((items.filter property).map change ++ items.filter fun item => !property item).Perm
      (items.map fun item => if property item then change item else item) := by
  induction items with
  | nil => exact List.Perm.nil
  | cons item items inductionHypothesis =>
      cases holds : property item with
      | true =>
          rw [List.filter_cons_of_pos holds, List.filter_cons_of_neg (by simp [holds]), List.map_cons, List.map_cons,
            if_pos holds]
          exact inductionHypothesis.cons _
      | false =>
          rw [List.filter_cons_of_neg (by simp [holds]), List.filter_cons_of_pos (by simp [holds]), List.map_cons,
            if_neg (by simp [holds])]
          exact List.perm_middle.trans (inductionHypothesis.cons _)

section Dimension

variable (get : Value → String → Value) (runs : List Value)

theorem fillDimension_foldl (dimension : Dimension) : runs.foldl (fillDimension get) dimension =
    { dimension with
      count := dimension.count + runs.countP fun run => (get run dimension.key).isDefinedAndNotNull
      values := dimension.values ++ runs.map fun run => get run dimension.key } := by
  induction runs generalizing dimension with
  | nil => simp
  | cons run runs inductionHypothesis =>
      rw [List.foldl_cons, inductionHypothesis]
      simp [fillDimension, List.countP_cons, Nat.add_assoc, Nat.add_comm]

/-- A pass over the types leaves the data of a dimension alone. -/
structure SameData (before after : Dimension) : Prop where
  key : after.key = before.key
  values : after.values = before.values
  count : after.count = before.count

theorem SameData.refl (dimension : Dimension) : SameData dimension dimension := ⟨rfl, rfl, rfl⟩

theorem SameData.trans {first second third : Dimension} (before : SameData first second)
    (after : SameData second third) : SameData first third :=
  ⟨after.key.trans before.key, after.values.trans before.values, after.count.trans before.count⟩

theorem sameData_foldl {change : Dimension → Value → Dimension}
    (same : ∀ dimension run, SameData dimension (change dimension run)) (dimension : Dimension) :
    SameData dimension (runs.foldl change dimension) := by
  induction runs generalizing dimension with
  | nil => exact SameData.refl dimension
  | cons run runs inductionHypothesis => exact (same dimension run).trans (inductionHypothesis _)

theorem noteNumber_sameData (dimension : Dimension) (run : Value) :
    SameData dimension (noteNumber get dimension run) := by
  unfold noteNumber
  dsimp only
  split
  · exact ⟨rfl, rfl, rfl⟩
  · exact SameData.refl dimension

theorem noteCategory_sameData (dimension : Dimension) (run : Value) :
    SameData dimension (noteCategory get dimension run) := by
  unfold noteCategory
  dsimp only
  split
  · split <;> split <;> exact ⟨rfl, rfl, rfl⟩
  · split <;> exact ⟨rfl, rfl, rfl⟩

theorem noteNumber_type (dimension : Dimension) (run : Value) : (noteNumber get dimension run).valueType =
    if (get run dimension.key).isNumeric then dimension.valueType else .assumedCategorical := by
  unfold noteNumber Value.isNumeric
  dsimp only
  cases (get run dimension.key).isNumber with
  | true => simp
  | false =>
      cases (get run dimension.key).isDefinedAndNotNull with
      | true => simp
      | false => simp

/-- Once a value is no number, the dimension is not assumed to be numeric any more. -/
theorem noteNumber_foldl_type (dimension : Dimension) : (runs.foldl (noteNumber get) dimension).valueType =
    if runs.all fun run => (get run dimension.key).isNumeric then dimension.valueType else .assumedCategorical := by
  induction runs generalizing dimension with
  | nil => rfl
  | cons run runs inductionHypothesis =>
      rw [List.foldl_cons, inductionHypothesis, (noteNumber_sameData get dimension run).key, noteNumber_type,
        List.all_cons]
      cases (get run dimension.key).isNumeric with
      | true => simp
      | false => simp

/-- What a dimension knows after these values: that it is a text, or the different values among them. -/
def Categories (seen : List Value) (dimension : Dimension) : Prop :=
  dimension.valueType = .string ∨ dimension.valueType = .assumedCategorical ∧
    ∃ values, dimension.categoricalValues = some values ∧ values.Nodup ∧ ∀ value ∈ seen, value ∈ values

theorem Categories.note {seen : List Value} {dimension : Dimension} (categories : Categories seen dimension)
    (run : Value) : Categories (seen ++ [get run dimension.key]) (noteCategory get dimension run) := by
  rcases categories with isString | ⟨assumed, values, known, distinct, all⟩
  · refine Or.inl ?_
    unfold noteCategory
    rw [isString]
    dsimp only
    split
    · rfl
    · exact isString
  · unfold noteCategory
    rw [assumed, known]
    dsimp only
    by_cases old : get run dimension.key ∈ values
    · rw [if_pos old]
      split
      · exact Or.inl rfl
      · refine Or.inr ⟨assumed, values, known, distinct, ?_⟩
        intro value isSeen
        rcases List.mem_append.mp isSeen with before | new
        · exact all value before
        · rw [List.mem_singleton.mp new]
          exact old
    · rw [if_neg old]
      split
      · exact Or.inl rfl
      · refine Or.inr ⟨rfl, values ++ [get run dimension.key], rfl, ?_, ?_⟩
        · exact List.nodup_append'.mpr ⟨distinct, List.nodup_singleton _, by simpa using old⟩
        · intro value isSeen
          rcases List.mem_append.mp isSeen with before | new
          · exact List.mem_append_left _ (all value before)
          · exact List.mem_append_right _ new

theorem categories_foldl {seen : List Value} {dimension : Dimension} (categories : Categories seen dimension) :
    Categories (seen ++ runs.map fun run => get run dimension.key) (runs.foldl (noteCategory get) dimension) := by
  induction runs generalizing seen dimension with
  | nil => simpa using categories
  | cons run runs inductionHypothesis =>
      have later := inductionHypothesis (categories.note get run)
      rw [(noteCategory_sameData get dimension run).key, List.append_assoc] at later
      exact later

/-- The passes that settle the type of a dimension. -/
def numbered (dimension : Dimension) : Dimension :=
  if dimension.valueType = .assumedNumeric then runs.foldl (noteNumber get) dimension else dimension

def categorized (dimension : Dimension) : Dimension :=
  if dimension.valueType = .assumedCategorical then
    runs.foldl (noteCategory get) { dimension with categoricalValues := some [] }
  else
    dimension

def typed (dimension : Dimension) : Dimension :=
  makeDimensionTypeConcrete (categorized get runs (numbered get runs dimension))

theorem numbered_sameData (dimension : Dimension) : SameData dimension (numbered get runs dimension) := by
  unfold numbered
  split
  · exact sameData_foldl runs (noteNumber_sameData get) dimension
  · exact SameData.refl dimension

theorem categorized_sameData (dimension : Dimension) : SameData dimension (categorized get runs dimension) := by
  unfold categorized
  split
  · have started : SameData dimension { dimension with categoricalValues := some [] } := ⟨rfl, rfl, rfl⟩
    exact started.trans (sameData_foldl runs (noteCategory_sameData get) _)
  · exact SameData.refl dimension

/-- Settling the type of a dimension leaves its values alone. -/
theorem typed_sameData (dimension : Dimension) : SameData dimension (typed get runs dimension) :=
  ((numbered_sameData get runs dimension).trans (categorized_sameData get runs _)).trans ⟨rfl, rfl, rfl⟩

theorem numbered_type (dimension : Dimension) :
    (numbered get runs dimension).valueType = dimension.valueType ∧
      (dimension.valueType = .assumedNumeric → ∀ run ∈ runs, (get run dimension.key).isNumeric = true) ∨
    (numbered get runs dimension).valueType = .assumedCategorical := by
  unfold numbered
  by_cases assumed : dimension.valueType = .assumedNumeric
  · rw [if_pos assumed, noteNumber_foldl_type]
    by_cases all : (runs.all fun run => (get run dimension.key).isNumeric) = true
    · rw [if_pos all]
      exact Or.inl ⟨rfl, fun _ => List.all_eq_true.mp all⟩
    · rw [if_neg all]
      exact Or.inr rfl
  · rw [if_neg assumed]
    exact Or.inl ⟨rfl, fun isAssumed => absurd isAssumed assumed⟩

theorem categorized_type (dimension : Dimension) :
    (categorized get runs dimension).valueType = dimension.valueType ∧ dimension.valueType ≠ .assumedCategorical ∨
    Categories (runs.map fun run => get run dimension.key) (categorized get runs dimension) := by
  unfold categorized
  by_cases assumed : dimension.valueType = .assumedCategorical
  · rw [if_pos assumed]
    have started : Categories [] { dimension with categoricalValues := some [] } :=
      Or.inr ⟨assumed, [], rfl, List.nodup_nil, fun _ none => nomatch none⟩
    exact Or.inr (categories_foldl get runs started)
  · rw [if_neg assumed]
    exact Or.inl ⟨rfl, assumed⟩

theorem concrete_numeric {dimension : Dimension} (numeric : (makeDimensionTypeConcrete dimension).valueType = .numeric) :
    dimension.valueType = .assumedNumeric ∨ dimension.valueType = .numeric := by
  unfold makeDimensionTypeConcrete at numeric
  cases isType : dimension.valueType with
  | assumedNumeric => exact Or.inl rfl
  | numeric => exact Or.inr rfl
  | _ =>
      rw [isType] at numeric
      cases numeric

theorem concrete_categorical {dimension : Dimension}
    (categorical : (makeDimensionTypeConcrete dimension).valueType = .categorical) :
    dimension.valueType = .assumedCategorical ∨ dimension.valueType = .categorical := by
  unfold makeDimensionTypeConcrete at categorical
  cases isType : dimension.valueType with
  | assumedCategorical => exact Or.inl rfl
  | categorical => exact Or.inr rfl
  | _ =>
      rw [isType] at categorical
      cases categorical

variable {get runs} in
theorem Categories.not_numeric {seen : List Value} {dimension : Dimension} (categories : Categories seen dimension) :
    dimension.valueType ≠ .assumedNumeric ∧ dimension.valueType ≠ .numeric ∧ dimension.valueType ≠ .categorical := by
  rcases categories with isType | ⟨isType, _⟩
  · rw [isType]
    decide
  · rw [isType]
    decide

/-- A dimension is numeric if it is declared so, or all its values are. -/
theorem typed_numeric {dimension : Dimension} (numeric : (typed get runs dimension).valueType = .numeric) :
    dimension.valueType = .numeric ∨ ∀ run ∈ runs, (get run dimension.key).isNumeric = true := by
  rcases categorized_type get runs (numbered get runs dimension) with ⟨sameType, _⟩ | categories
  · have early := concrete_numeric numeric
    rw [sameType] at early
    rcases numbered_type get runs dimension with ⟨sameEarlier, assumed⟩ | isCategorical
    · rw [sameEarlier] at early
      rcases early with isAssumed | declared
      · exact Or.inr (assumed isAssumed)
      · exact Or.inl declared
    · rw [isCategorical] at early
      rcases early with impossible | impossible
      · cases impossible
      · cases impossible
  · obtain ⟨notAssumed, notNumeric, _⟩ := categories.not_numeric
    rcases concrete_numeric numeric with assumed | declared
    · exact absurd assumed notAssumed
    · exact absurd declared notNumeric

/-- A categorical dimension knows all its values. -/
theorem typed_categorical {dimension : Dimension} (undecided : dimension.valueType ≠ .categorical)
    (categorical : (typed get runs dimension).valueType = .categorical) :
    ∃ values, (typed get runs dimension).categoricalValues = some values ∧ values.Nodup ∧
      ∀ run ∈ runs, get run dimension.key ∈ values := by
  have early := concrete_categorical categorical
  rcases categorized_type get runs (numbered get runs dimension) with ⟨sameType, notAssumed⟩ | categories
  · rw [sameType] at early
    rcases early with assumed | declared
    · exact absurd assumed notAssumed
    · rcases numbered_type get runs dimension with ⟨sameEarlier, _⟩ | isCategorical
      · exact absurd (sameEarlier.symm.trans declared) undecided
      · exact absurd isCategorical notAssumed
  · rcases categories with isString | ⟨_, values, known, distinct, all⟩
    · rw [isString] at early
      rcases early with impossible | impossible
      · cases impossible
      · cases impossible
    · refine ⟨values, known, distinct, ?_⟩
      intro run isRun
      rw [← (numbered_sameData get runs dimension).key]
      exact all _ (List.mem_map_of_mem isRun)

theorem handleAssumedNumeric_perm (dimensions : List Dimension) :
    (handleAssumedNumeric get dimensions runs).Perm (dimensions.map (numbered get runs)) := by
  have permuted := filter_map_perm (fun dimension : Dimension => decide (dimension.valueType = .assumedNumeric))
    (fun dimension => runs.foldl (noteNumber get) dimension) dimensions
  simp only [decide_eq_true_eq] at permuted
  rw [handleAssumedNumeric, changeType, eachRun_eq_map]
  exact permuted

theorem handleAssumedCategorical_perm (dimensions : List Dimension) :
    (handleAssumedCategorical get dimensions runs).Perm (dimensions.map (categorized get runs)) := by
  have permuted := filter_map_perm (fun dimension : Dimension => decide (dimension.valueType = .assumedCategorical))
    (fun dimension => runs.foldl (noteCategory get) { dimension with categoricalValues := some [] }) dimensions
  simp only [decide_eq_true_eq] at permuted
  rw [handleAssumedCategorical, changeType, eachRun_eq_map, List.map_map]
  exact permuted

/-- The dimensions before the ticks, whatever order they are in. -/
theorem typed_perm (dimensions : List Dimension) :
    ((handleAssumedCategorical get (handleAssumedNumeric get dimensions runs) runs).map
      makeDimensionTypeConcrete).Perm (dimensions.map (typed get runs)) := by
  have numberedFirst := (handleAssumedNumeric_perm get runs dimensions).map (categorized get runs)
  have both := (handleAssumedCategorical_perm get runs _).trans numberedFirst
  rw [List.map_map] at both
  have all := both.map makeDimensionTypeConcrete
  rw [List.map_map] at all
  exact all

end Dimension

/-! ### Ticks -/

section Ticks

variable (realm : Realm)

theorem sortDimCategoricalValues_perm (values : List Value) : (sortDimCategoricalValues realm values).Perm values := by
  unfold sortDimCategoricalValues
  dsimp only
  have split : ((values.filter fun value => (realm.toNumber value).isSome) ++
      values.filter fun value => !(realm.toNumber value).isSome).Perm values :=
    List.filter_append_perm _ _
  generalize (values.filter fun value => (realm.toNumber value).isSome) = numbers at split ⊢
  generalize (values.filter fun value => !(realm.toNumber value).isSome) = rest at split ⊢
  have splitRest : (rest.filter Value.isDefinedAndNotNull ++
      rest.filter fun value => !value.isDefinedAndNotNull).Perm rest :=
    List.filter_append_perm _ _
  have sortedStrings := (List.reverse_perm _).trans (List.mergeSort_perm (rest.filter Value.isDefinedAndNotNull)
    fun first second => utf16 (realm.toText first) ≤ utf16 (realm.toText second))
  have sortedNumbers := List.mergeSort_perm numbers fun first second =>
    (realm.toNumber first).getD 0 ≤ (realm.toNumber second).getD 0
  have restFirst := (sortedStrings.append_left (rest.filter fun value => !value.isDefinedAndNotNull)).trans
    (List.perm_append_comm.trans splitRest)
  exact (restFirst.append sortedNumbers).trans (List.perm_append_comm.trans split)

theorem indexOf_of_mem {values : List Value} {value : Value} (member : value ∈ values) :
    ∃ position : ℕ, indexOf values value = (position : ℤ) ∧ values[position]? = some value := by
  unfold indexOf
  cases found : values.findIdx? fun other => other = value with
  | none =>
      have apart := List.findIdx?_eq_none_iff.mp found value member
      simp at apart
  | some position =>
      obtain ⟨inside, isValue, _⟩ := List.findIdx?_eq_some_iff_getElem.mp found
      refine ⟨position, rfl, ?_⟩
      rw [List.getElem?_eq_getElem inside, of_decide_eq_true isValue]

/-- The ticks that a dimension with all its categories gets. -/
def ticked (dimension : Dimension) : Dimension :=
  let categoricalValues := dimension.categoricalValues.getD []
  let dimValues := sortDimCategoricalValues realm categoricalValues
  { dimension with
    tickvals := some (List.range categoricalValues.length)
    ticktext := some (dimValues.map realm.toText)
    plotlyValues := some (dimension.values.map (indexOf dimValues)) }

/-- A dimension that knows all its categories gets a tick for each, and every value its tick's position. -/
theorem ticked_right {dimension : Dimension} {values : List Value} (known : dimension.categoricalValues = some values)
    (all : ∀ value ∈ dimension.values, value ∈ values) :
    ∃ ticktext plotlyValues, (ticked realm dimension).ticktext = some ticktext ∧
      (ticked realm dimension).plotlyValues = some plotlyValues ∧
        TicksRight realm (ticked realm dimension) ticktext plotlyValues := by
  refine ⟨_, _, rfl, rfl, ?_⟩
  rw [known, Option.getD_some]
  have placed : ∀ (run : ℕ) (value : Value), dimension.values[run]? = some value →
      ∃ position : ℕ, (dimension.values.map (indexOf (sortDimCategoricalValues realm values)))[run]? =
        some (position : ℤ) ∧ (sortDimCategoricalValues realm values)[position]? = some value := by
    intro run value isValue
    have member := (sortDimCategoricalValues_perm realm values).mem_iff.mpr (all value (List.mem_of_getElem? isValue))
    obtain ⟨position, isPosition, there⟩ := indexOf_of_mem member
    exact ⟨position, by rw [List.getElem?_map, isValue, Option.map_some, isPosition], there⟩
  constructor
  · exact List.length_map _
  · intro run value isValue
    obtain ⟨position, isPosition, there⟩ := placed run value isValue
    exact ⟨position, isPosition, by rw [List.getElem?_map, there, Option.map_some]⟩
  · intro run other value otherValue isValue isOther apart same
    obtain ⟨position, isPosition, there⟩ := placed run value isValue
    obtain ⟨otherPosition, isOtherPosition, otherThere⟩ := placed other otherValue isOther
    rw [isPosition, isOtherPosition, Option.some.injEq, Nat.cast_inj] at same
    rw [same, otherThere, Option.some.injEq] at there
    exact apart there.symm

/-- The dimensions come back in another order, the categorical ones with their ticks. -/
theorem fillTickVals_perm {dimensions : List Dimension}
    (known : ∀ dimension ∈ dimensions, dimension.valueType = .categorical → ∃ values,
      dimension.categoricalValues = some values) :
    ∃ filled, fillTickVals realm dimensions = .ok filled ∧
      filled.Perm (dimensions.map fun dimension =>
        if dimension.valueType = .categorical then ticked realm dimension else dimension) := by
  have each : ∀ dimension ∈ dimensions.filter fun dimension => dimension.valueType = .categorical,
      fillTickVal realm dimension = .ok (ticked realm dimension) := by
    intro dimension member
    rw [List.mem_filter, decide_eq_true_eq] at member
    obtain ⟨values, isKnown⟩ := known dimension member.1 member.2
    rw [fillTickVal, isKnown]
    unfold ticked
    rw [isKnown]
    rfl
  refine ⟨_, by rw [fillTickVals, mapM_eq_map each]; rfl, ?_⟩
  have permuted := filter_map_perm (fun dimension => decide (dimension.valueType = .categorical)) (ticked realm)
    dimensions
  simpa only [decide_eq_true_eq] using permuted

end Ticks

end Zigopt.Web
