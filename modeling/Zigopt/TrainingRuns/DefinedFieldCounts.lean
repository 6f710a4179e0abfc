/-
Module: Zigopt.TrainingRuns.DefinedFieldCounts
Layer: Proofs
Purpose: The defined fields have distinct keys and count what the runs store exactly if no metric of the runs is named
  so that its key is taken apart at another place than it was glued together.
Main exports: shownKey, CountsDefined, PlainMetrics, getDefinedFields_counts_iff
-/
import Zigopt.TrainingRuns.StoredLeaves

namespace Zigopt.TrainingRuns

open DottedText

/-! ### What is shown of a leaf -/

/-- The variance of a metric is shown as its standard deviation, everything else as it is called. -/
def shownParts : List String → List String
  | ["values", metric, "value_var"] => ["values", metric, "value_stddev"]
  | leaf => leaf

/-- The key under which a stored leaf is shown to the web client. -/
def shownKey (leaf : List String) : String := joinDots (shownParts leaf)

def customKeys : List String := (customFields 0).map DefinedField.key

/-- The answer has distinct keys, and one entry for each leaf that a run stores, with the number of runs that store
    it; its other entries are those of columns and of objects, and the custom ones. -/
structure CountsDefined (runs : List StoredRun) (fields : List DefinedField) : Prop where
  distinct : (fields.map DefinedField.key).Nodup
  counted : ∀ run ∈ runs, ∀ leaf ∈ storedLeaves run, ∃ field ∈ fields,
    field.key = shownKey leaf ∧ field.fieldCount = countOf runs leaf
  known : ∀ field ∈ fields, field.key ∈ customKeys ∨
    ∃ leaf, Covered runs leaf ∧ field.key = shownKey leaf ∧ field.fieldCount = countOf runs leaf

/-- A metric with a variance has no dots in its name, and no metric has the text of a variance after its first dot. -/
def PlainMetric (metric subField : String) : Prop :=
  (subField = "value_var" → IsUndotted metric) ∧ (splitDots metric)[1]? ≠ some "value_var"

/-- No metric of the runs has a dot or another special form in its name. -/
def PlainMetrics (runs : List StoredRun) : Prop :=
  ∀ run ∈ runs, ∀ metric subField, ["values", metric, subField] ∈ storedLeaves run → PlainMetric metric subField

/-! ### Keys that are taken apart -/

theorem apiNames_undotted : ∀ field ∈ trainingRunApiFields, IsUndotted field.apiName := by
  decide

/-- The sub-fields of a field. -/
def FieldType.subFields : FieldType → List Protobuf.Field
  | .protobufObject _ subFields => subFields
  | .protobufMapOfObject _ subFields => subFields
  | _ => []

theorem subFields_undotted :
    ∀ field ∈ trainingRunApiFields, ∀ subField ∈ field.type.subFields, IsUndotted subField.name := by
  decide

theorem metric_subFields : ∀ field ∈ trainingRunApiFields, field.apiName = "values" →
    field.type = .protobufMapOfObject "v" [doubleField "value" "v", doubleField "value_var" "r"] := by
  decide

theorem undotted_literal : IsUndotted "values" ∧ IsUndotted "value" ∧ IsUndotted "value_var" ∧
    IsUndotted "value_stddev" := by
  decide

/-- The paths of metrics. -/
theorem covered_metric {runs : List StoredRun} {leaf : List String} (covered : Covered runs leaf)
    (isMetric : leaf.head? = some "values") :
    ∃ metric subField, leaf = ["values", metric, subField] ∧ (subField = "value" ∨ subField = "value_var") ∧
      ∃ run ∈ runs, leaf ∈ storedLeaves run := by
  obtain ⟨field, isField, hasLeaf, stored⟩ := covered
  have isValues : field.apiName = "values" :=
    Option.some.inj ((FieldDetails.HasLeaf.head hasLeaf).symm.trans isMetric)
  have isType := metric_subFields field isField isValues
  unfold FieldDetails.HasLeaf at hasLeaf
  rw [isType] at hasLeaf
  obtain ⟨metric, subField, isSubField, rfl⟩ := hasLeaf
  rw [isValues] at stored ⊢
  refine ⟨metric, subField.name, rfl, ?_, stored (by rw [isType]; rfl)⟩
  simp only [List.mem_cons, List.not_mem_nil, or_false] at isSubField
  rcases isSubField with rfl | rfl
  · exact .inl rfl
  · exact .inr rfl

theorem splitDots_leaf {runs : List StoredRun} {leaf : List String} (covered : Covered runs leaf) :
    (splitDots (joinDots leaf)).head? = leaf.head? := by
  obtain ⟨field, isField, hasLeaf, _⟩ := covered
  have head := FieldDetails.HasLeaf.head hasLeaf
  obtain ⟨rest, rfl⟩ := List.head?_eq_some_iff.mp head
  rw [splitDots_joinDots (List.cons_ne_nil _ _), List.flatMap_cons,
    splitDots_of_undotted (apiNames_undotted field isField)]
  rfl

/-! ### Sanitized keys -/

/-- The key after it was sanitized. -/
def sanitizedText (key : String) : String := (sanitizedKey key).getD key

/-- The parts are those of a key that is sanitized. -/
def IsVariance (parts : List String) : Prop := parts[0]? = some "values" ∧ parts[2]? = some "value_var"

theorem sanitizedText_of_variance {key : String} (isVariance : IsVariance (splitDots key)) :
    sanitizedText key = joinDots ((splitDots key).set 2 "value_stddev") := by
  unfold IsVariance at isVariance
  rw [sanitizedText, sanitizedKey, if_pos isVariance]
  rfl

theorem sanitizedText_of_other {key : String} (notVariance : ¬IsVariance (splitDots key)) :
    sanitizedText key = key := by
  unfold IsVariance at notVariance
  rw [sanitizedText, sanitizedKey, if_neg notVariance]
  rfl

theorem splitDots_of_variance {key : String} (isVariance : IsVariance (splitDots key)) :
    splitDots (sanitizedText key) = (splitDots key).set 2 "value_stddev" := by
  rw [sanitizedText_of_variance isVariance]
  apply splitDots_joinDots_of_undotted
  · intro isEmpty
    exact splitDots_ne_nil key (by simpa using congrArg List.length isEmpty)
  · intro part isPart
    rcases List.mem_or_eq_of_mem_set isPart with isOld | rfl
    · exact undotted_of_mem_splitDots isOld
    · exact undotted_literal.2.2.2

/-- No sanitized key is one that would be sanitized. -/
theorem not_variance_sanitizedText (key : String) : ¬IsVariance (splitDots (sanitizedText key)) := by
  by_cases isVariance : IsVariance (splitDots key)
  · rw [splitDots_of_variance isVariance]
    rintro ⟨_, third⟩
    rw [List.getElem?_set_self (List.getElem?_eq_some_iff.mp isVariance.2).1] at third
    exact absurd (Option.some.inj third) (by decide)
  · rwa [sanitizedText_of_other isVariance]

theorem splitDots_metric {metric subField : String} (undotted : IsUndotted subField) :
    splitDots (joinDots ["values", metric, subField]) = "values" :: (splitDots metric ++ [subField]) := by
  rw [splitDots_joinDots (List.cons_ne_nil _ _)]
  simp [splitDots_of_undotted undotted_literal.1, splitDots_of_undotted undotted]

theorem third_of_undotted {metric subField : String} (undotted : IsUndotted metric) :
    ("values" :: (splitDots metric ++ [subField]))[2]? = some subField := by
  rw [splitDots_of_undotted undotted]
  rfl

theorem third_of_dotted {metric subField : String} (dotted : ¬IsUndotted metric) :
    ("values" :: (splitDots metric ++ [subField]))[2]? = (splitDots metric)[1]? := by
  have long := length_splitDots_of_dotted dotted
  rw [List.getElem?_cons_succ, List.getElem?_append_left (by omega)]

theorem second_of_undotted {metric : String} (undotted : IsUndotted metric) : (splitDots metric)[1]? = none := by
  rw [splitDots_of_undotted undotted]
  rfl

/-- The key of a plain metric is shown as it should be. -/
theorem sanitizedText_of_plain {metric subField : String} (known : subField = "value" ∨ subField = "value_var")
    (plain : PlainMetric metric subField) :
    sanitizedText (joinDots ["values", metric, subField]) = shownKey ["values", metric, subField] := by
  have undotted : IsUndotted subField := by
    rcases known with rfl | rfl
    · exact undotted_literal.2.1
    · exact undotted_literal.2.2.1
  by_cases isPlain : IsUndotted metric
  · rcases known with rfl | rfl
    · rw [sanitizedText_of_other]
      · rfl
      · rw [splitDots_metric undotted]
        rintro ⟨_, third⟩
        rw [third_of_undotted isPlain] at third
        exact absurd (Option.some.inj third) (by decide)
    · rw [sanitizedText_of_variance]
      · rw [splitDots_metric undotted, splitDots_of_undotted isPlain]
        rfl
      · rw [splitDots_metric undotted]
        exact ⟨rfl, third_of_undotted isPlain⟩
  · have isValue : subField = "value" := known.resolve_right fun isVariance => isPlain (plain.1 isVariance)
    subst isValue
    rw [sanitizedText_of_other]
    · rfl
    · rw [splitDots_metric undotted]
      rintro ⟨_, third⟩
      rw [third_of_dotted isPlain] at third
      exact plain.2 third

theorem sanitizedText_of_other_field {runs : List StoredRun} {leaf : List String} (covered : Covered runs leaf)
    (notMetric : leaf.head? ≠ some "values") : sanitizedText (joinDots leaf) = shownKey leaf := by
  have shown : shownParts leaf = leaf := by
    unfold shownParts
    split
    · exact absurd rfl notMetric
    · rfl
  rw [shownKey, shown, sanitizedText_of_other]
  rintro ⟨first, _⟩
  rw [← List.head?_eq_getElem?, splitDots_leaf covered] at first
  exact notMetric first

/-! ### Keys that are shown -/

theorem shownParts_metric {metric subField : String} (known : subField = "value" ∨ subField = "value_var") :
    ∃ shown, shownParts ["values", metric, subField] = ["values", metric, shown] ∧ IsUndotted shown ∧
      (shown = "value_stddev" ↔ subField = "value_var") := by
  rcases known with rfl | rfl
  · exact ⟨"value", rfl, undotted_literal.2.1, by decide⟩
  · exact ⟨"value_stddev", rfl, undotted_literal.2.2.2, by decide⟩

theorem last_metric (metric subField : String) :
    ("values" :: (splitDots metric ++ [subField]))[(splitDots metric).length + 1]? = some subField := by
  rw [List.getElem?_cons_succ, List.getElem?_concat_length]

/-- Of a key with more than three parts, the last one is not replaced. -/
theorem last_sanitizedText {runs : List StoredRun} {leaf : List String} (covered : Covered runs leaf)
    {metric shown : String}
    (parts : splitDots (sanitizedText (joinDots leaf)) = "values" :: (splitDots metric ++ [shown]))
    (long : 2 ≤ (splitDots metric).length) : shown ≠ "value_stddev" := by
  by_cases isMetric : leaf.head? = some "values"
  · obtain ⟨other, subField, rfl, known, _⟩ := covered_metric covered isMetric
    have undotted : IsUndotted subField := by
      rcases known with rfl | rfl
      · exact undotted_literal.2.1
      · exact undotted_literal.2.2.1
    have ofOther := @splitDots_metric other _ undotted
    have isLast : shown = subField := by
      by_cases isVariance : IsVariance (splitDots (joinDots ["values", other, subField]))
      · rw [splitDots_of_variance isVariance, ofOther] at parts
        have sameLength := congrArg List.length parts
        simp only [List.length_set, List.length_cons, List.length_append, List.length_nil] at sameLength
        have atLast := congrArg (fun list => list[(splitDots metric).length + 1]?) parts
        have position : (splitDots metric).length + 1 = (splitDots other).length + 1 := by
          omega
        simp only [last_metric] at atLast
        rw [List.getElem?_set_ne (by omega), position, last_metric] at atLast
        exact (Option.some.inj atLast).symm
      · rw [sanitizedText_of_other isVariance, ofOther] at parts
        have lasts := congrArg List.getLast? parts
        rw [← List.cons_append, ← List.cons_append, List.getLast?_concat, List.getLast?_concat] at lasts
        exact (Option.some.inj lasts).symm
    rintro rfl
    rcases known with rfl | rfl
    · exact absurd isLast (by decide)
    · exact absurd isLast (by decide)
  · have notVariance : ¬IsVariance (splitDots (joinDots leaf)) := by
      rintro ⟨first, _⟩
      rw [← List.head?_eq_getElem?, splitDots_leaf covered] at first
      exact isMetric first
    rw [sanitizedText_of_other notVariance] at parts
    have heads := splitDots_leaf covered
    rw [parts] at heads
    exact absurd heads.symm isMetric

/-- A metric that is not plain is not shown by any sanitized key. -/
theorem shownKey_ne_sanitizedText {runs : List StoredRun} {metric subField : String}
    (known : subField = "value" ∨ subField = "value_var") (notPlain : ¬PlainMetric metric subField)
    {leaf : List String} (covered : Covered runs leaf) :
    shownKey ["values", metric, subField] ≠ sanitizedText (joinDots leaf) := by
  obtain ⟨shown, isShown, shownUndotted, isStddev⟩ := @shownParts_metric metric _ known
  intro same
  have parts : splitDots (sanitizedText (joinDots leaf)) = "values" :: (splitDots metric ++ [shown]) := by
    rw [← same, shownKey, isShown, splitDots_metric shownUndotted]
  have dotted : ¬IsUndotted metric := by
    intro undotted
    refine notPlain ⟨fun _ => undotted, ?_⟩
    rw [second_of_undotted undotted]
    simp
  by_cases variancePart : (splitDots metric)[1]? = some "value_var"
  · apply not_variance_sanitizedText (joinDots leaf)
    rw [parts]
    exact ⟨rfl, (third_of_dotted dotted).trans variancePart⟩
  · have isVariance : subField = "value_var" := by
      by_contra notVariance
      exact notPlain ⟨fun isVariance => absurd isVariance notVariance, variancePart⟩
    have last := last_sanitizedText covered parts (length_splitDots_of_dotted dotted)
    exact last (isStddev.mpr isVariance)

/-! ### Shown keys are distinct -/

/-- What a sub-field is shown as. -/
def shownSubField (apiName subField : String) : String :=
  if apiName = "values" ∧ subField = "value_var" then "value_stddev" else subField

theorem shownParts_subField (apiName key subField : String) :
    shownParts [apiName, key, subField] = [apiName, key, shownSubField apiName subField] := by
  unfold shownSubField
  split
  · rename_i isVariance
    rw [isVariance.1, isVariance.2]
    rfl
  · rename_i notVariance
    unfold shownParts
    split
    · rename_i isVariance
      simp only [List.cons.injEq, and_true] at isVariance
      exact absurd ⟨isVariance.1, isVariance.2.2⟩ notVariance
    · rfl

theorem subFields_not_stddev :
    ∀ field ∈ trainingRunApiFields, ∀ subField ∈ field.type.subFields, subField.name ≠ "value_stddev" := by
  decide

theorem shownSubField_undotted {apiName subField : String} (undotted : IsUndotted subField) :
    IsUndotted (shownSubField apiName subField) := by
  unfold shownSubField
  split
  · exact undotted_literal.2.2.2
  · exact undotted

theorem shownSubField_injective {apiName first second : String} (firstOther : first ≠ "value_stddev")
    (secondOther : second ≠ "value_stddev")
    (same : shownSubField apiName first = shownSubField apiName second) : first = second := by
  unfold shownSubField at same
  split at same
  · split at same
    · rename_i isFirst isSecond
      rw [isFirst.2, isSecond.2]
    · exact absurd same.symm secondOther
  · split at same
    · exact absurd same firstOther
    · exact same

theorem splitDots_pair (first second : String) :
    splitDots (joinDots [first, second]) = splitDots first ++ splitDots second := by
  rw [splitDots_joinDots (List.cons_ne_nil _ _)]
  simp

theorem splitDots_triple {first second third : String} (undotted : IsUndotted third) :
    splitDots (joinDots [first, second, third]) = splitDots first ++ (splitDots second ++ [third]) := by
  rw [splitDots_joinDots (List.cons_ne_nil _ _)]
  simp [splitDots_of_undotted undotted]

theorem shownParts_cons (first : String) (rest : List String) :
    ∃ others, shownParts (first :: rest) = first :: others := by
  unfold shownParts
  split
  · rename_i isVariance
    rw [List.cons.injEq] at isVariance
    rw [isVariance.1]
    exact ⟨_, rfl⟩
  · exact ⟨rest, rfl⟩

theorem shownParts_pair (first second : String) : shownParts [first, second] = [first, second] := by
  unfold shownParts
  split
  · rename_i isVariance
    simp at isVariance
  · rfl

theorem head_shownKey {runs : List StoredRun} {leaf : List String} (covered : Covered runs leaf) :
    (splitDots (shownKey leaf)).head? = leaf.head? := by
  obtain ⟨field, isField, hasLeaf, _⟩ := covered
  have head := FieldDetails.HasLeaf.head hasLeaf
  obtain ⟨rest, rfl⟩ := List.head?_eq_some_iff.mp head
  obtain ⟨others, isShown⟩ := shownParts_cons field.apiName rest
  rw [shownKey, isShown, splitDots_joinDots (List.cons_ne_nil _ _), List.flatMap_cons,
    splitDots_of_undotted (apiNames_undotted field isField)]
  rfl

theorem shownKey_injective {runs : List StoredRun} {first second : List String} (covered : Covered runs first)
    (otherCovered : Covered runs second) (same : shownKey first = shownKey second) : first = second := by
  have heads := (head_shownKey covered).symm.trans ((congrArg _ (congrArg _ same)).trans (head_shownKey otherCovered))
  obtain ⟨field, isField, hasLeaf, _⟩ := covered
  obtain ⟨other, isOther, otherHasLeaf, _⟩ := otherCovered
  have sameField : field = other := by
    rw [FieldDetails.HasLeaf.head hasLeaf, FieldDetails.HasLeaf.head otherHasLeaf] at heads
    exact apiNames_nodup.eq_of_key isField isOther (Option.some.inj heads)
  subst sameField
  have undotted := subFields_undotted field isField
  have notStddev := subFields_not_stddev field isField
  obtain ⟨apiName, type, _, _, _⟩ := field
  cases type with
  | primitive column => exact Eq.trans hasLeaf (Eq.symm otherHasLeaf)
  | protobufPrimitive jsonName => exact Eq.trans hasLeaf (Eq.symm otherHasLeaf)
  | protobufStruct jsonName =>
      obtain ⟨key, rfl⟩ := hasLeaf
      obtain ⟨otherKey, rfl⟩ := otherHasLeaf
      have parts := congrArg splitDots same
      rw [shownKey, shownKey, shownParts_pair, shownParts_pair, splitDots_pair, splitDots_pair,
        List.append_cancel_left_eq] at parts
      rw [splitDots_injective parts]
  | protobufObject jsonName subFields =>
      obtain ⟨subField, _, rfl⟩ := hasLeaf
      obtain ⟨otherField, _, rfl⟩ := otherHasLeaf
      have parts := congrArg splitDots same
      rw [shownKey, shownKey, shownParts_pair, shownParts_pair, splitDots_pair, splitDots_pair,
        List.append_cancel_left_eq] at parts
      rw [splitDots_injective parts]
  | protobufMapOfObject jsonName subFields =>
      obtain ⟨key, subField, isSubField, rfl⟩ := hasLeaf
      obtain ⟨otherKey, otherField, isOtherField, rfl⟩ := otherHasLeaf
      have parts := congrArg splitDots same
      rw [shownKey, shownKey, shownParts_subField, shownParts_subField,
        splitDots_triple (shownSubField_undotted (undotted subField isSubField)),
        splitDots_triple (shownSubField_undotted (undotted otherField isOtherField)),
        List.append_cancel_left_eq] at parts
      obtain ⟨sameKey, sameShown⟩ := List.append_inj' parts rfl
      have sameName := shownSubField_injective (notStddev subField isSubField) (notStddev otherField isOtherField)
        (List.singleton_injective sameShown)
      rw [splitDots_injective sameKey, sameName]

/-! ### The answer -/

/-- The key of an entry and its count. -/
def DefinedField.entry (field : DefinedField) : String × ℕ := (field.key, field.fieldCount)

/-- The answer has an entry for each of the paths, and the custom ones. -/
structure Answered (runs : List StoredRun) (leaves : List (List String)) (fields : List DefinedField) : Prop where
  distinct : leaves.Nodup
  covers : ∀ leaf, leaf ∈ leaves ↔ Covered runs leaf
  entries : ∃ idCount, fields.map DefinedField.entry =
    leaves.map (fun leaf => (sanitizedText (joinDots leaf), countOf runs leaf)) ++
      (customFields idCount).map DefinedField.entry

/-- A name can be read off the entry. -/
def DefinedField.Readable (field : DefinedField) : Prop :=
  field.PlainlyNamed ∧ ((splitDots field.key)[0]? = some "values" → 3 ≤ (splitDots field.key).length)

theorem partAt_ok {parts : List String} {index : ℕ} (inside : index < parts.length) :
    ∃ part, partAt parts index = .ok part := by
  unfold partAt
  rw [List.getElem?_eq_getElem inside]
  exact ⟨_, rfl⟩

theorem readableName_ok {field : DefinedField} (readable : field.Readable) :
    ∃ name, readableName field = .ok name := by
  unfold readableName
  split
  · exact ⟨_, rfl⟩
  · rename_i dotted
    have isKey : field.name = field.key := readable.1.resolve_right dotted
    split
    · exact ⟨_, rfl⟩
    · have long := length_splitDots_of_dotted dotted
      obtain ⟨second, isSecond⟩ := partAt_ok (show 1 < (splitDots field.name).length by omega)
      simp only [isSecond, Raising.ok_bind]
      split
      · split
        · exact ⟨_, rfl⟩
        · exact ⟨_, rfl⟩
        · exact ⟨_, rfl⟩
      · exact ⟨_, rfl⟩
      · exact ⟨_, rfl⟩
      · rename_i isValues
        have longer := readable.2 (isKey ▸ isValues)
        rw [← isKey] at longer
        obtain ⟨third, isThird⟩ := partAt_ok (show 2 < (splitDots field.name).length by omega)
        simp only [isThird, Raising.ok_bind]
        exact ⟨_, rfl⟩
      · exact ⟨_, rfl⟩

/-- Readable names change neither keys nor counts. -/
theorem insertReadableNames_ok {fields : List DefinedField} (readable : ∀ field ∈ fields, field.Readable) :
    ∃ named, insertReadableNames fields = .ok named ∧
      named.map DefinedField.entry = fields.map DefinedField.entry := by
  have each : ∀ field ∈ fields, ∃ name, readableName field = .ok name ∧ True := by
    intro field isField
    obtain ⟨name, isName⟩ := readableName_ok (readable field isField)
    exact ⟨name, isName, trivial⟩
  obtain ⟨names, read, _⟩ := Raising.mapM_of_each each
  unfold insertReadableNames
  simp only [read, Raising.ok_bind]
  split
  · rename_i sameLength
    refine ⟨_, rfl, ?_⟩
    calc (List.zipWith (fun field readable => { field with name := readable }) fields names.eraseDups).map
          DefinedField.entry
        = (fields.zip names.eraseDups).map (DefinedField.entry ∘ Prod.fst) := by
          rw [List.map_zipWith, List.zip, List.map_zipWith]
          rfl
      _ = fields.map DefinedField.entry := by
          rw [← List.map_map, List.map_fst_zip (le_of_eq sameLength.symm)]
  · exact ⟨_, rfl, rfl⟩

/-- One entry after it was sanitized. -/
def DefinedField.sanitized (field : DefinedField) : DefinedField :=
  match sanitizedKey field.key with
  | some text => { field with key := text, name := text }
  | none => field

theorem sanitized_entry (field : DefinedField) :
    field.sanitized.entry = (sanitizedText field.key, field.fieldCount) := by
  unfold DefinedField.sanitized sanitizedText
  split
  · rename_i isText
    rw [isText]
    rfl
  · rename_i isNone
    rw [isNone]
    rfl

theorem sanitized_named {field : DefinedField} (named : field.PlainlyNamed) : field.sanitized.PlainlyNamed := by
  unfold DefinedField.sanitized
  split
  · exact .inl rfl
  · exact named

theorem length_sanitizedText (key : String) : (splitDots (sanitizedText key)).length = (splitDots key).length := by
  by_cases isVariance : IsVariance (splitDots key)
  · rw [splitDots_of_variance isVariance, List.length_set]
  · rw [sanitizedText_of_other isVariance]

theorem head_sanitizedText (key : String) : (splitDots (sanitizedText key))[0]? = (splitDots key)[0]? := by
  by_cases isVariance : IsVariance (splitDots key)
  · rw [splitDots_of_variance isVariance, List.getElem?_set_ne (by decide)]
  · rw [sanitizedText_of_other isVariance]

theorem sanitized_readable {field : DefinedField} (readable : field.Readable) : field.sanitized.Readable := by
  have isKey : field.sanitized.key = sanitizedText field.key := congrArg Prod.fst (sanitized_entry field)
  refine ⟨sanitized_named readable.1, ?_⟩
  rw [isKey, length_sanitizedText, head_sanitizedText]
  exact readable.2

theorem readable_of_undotted {field : DefinedField} (name : IsUndotted field.name) (key : IsUndotted field.key)
    (notValues : field.key ≠ "values") : field.Readable := by
  refine ⟨.inr name, ?_⟩
  rw [splitDots_of_undotted key]
  exact fun isValues => absurd (Option.some.inj isValues) notValues

/-- The custom entries have keys and names of their own, which are not taken apart. -/
theorem customFields_plain : ∀ field ∈ customFields 0, IsUndotted field.name ∧ IsUndotted field.key ∧
    field.key ≠ "values" ∧ field.key ∉ trainingRunApiFields.map FieldDetails.apiName := by
  decide

theorem customFields_counted (idCount : ℕ) :
    customFields idCount = (customFields 0).map fun field => { field with fieldCount := idCount } := rfl

theorem customField_plain {idCount : ℕ} {field : DefinedField} (isCustom : field ∈ customFields idCount) :
    IsUndotted field.name ∧ IsUndotted field.key ∧ field.key ≠ "values" ∧
      field.key ∉ trainingRunApiFields.map FieldDetails.apiName := by
  rw [customFields_counted] at isCustom
  obtain ⟨custom, ofCustom, rfl⟩ := List.mem_map.mp isCustom
  exact customFields_plain custom ofCustom

theorem customKeys_eq (idCount : ℕ) : (customFields idCount).map DefinedField.key = customKeys := rfl

theorem sanitizedText_of_undotted {key : String} (undotted : IsUndotted key) : sanitizedText key = key := by
  rw [sanitizedText_of_other]
  rintro ⟨_, third⟩
  rw [splitDots_of_undotted undotted] at third
  cases third

theorem readable_of_covered {runs : List StoredRun} {leaf : List String} (covered : Covered runs leaf)
    {info : DefinedField} (isKey : info.key = joinDots leaf) (named : info.PlainlyNamed) : info.Readable := by
  refine ⟨named, ?_⟩
  intro isValues
  rw [isKey, ← List.head?_eq_getElem?, splitDots_leaf covered] at isValues
  obtain ⟨metric, subField, rfl, known, _⟩ := covered_metric covered isValues
  have undotted : IsUndotted subField := by
    rcases known with rfl | rfl
    · exact undotted_literal.2.1
    · exact undotted_literal.2.2.1
  have nonempty := List.length_pos_iff.mpr (splitDots_ne_nil metric)
  rw [isKey, splitDots_metric undotted, List.length_cons, List.length_append, List.length_singleton]
  omega

theorem exists_leaf {runs : List StoredRun} {leaves : List (List String)} {infos : List DefinedField}
    (extracted : Extracted runs leaves infos) {info : DefinedField} (isInfo : info ∈ infos) :
    ∃ leaf ∈ leaves, info.key = joinDots leaf := by
  have isEntry : (info.key, info.fieldCount) ∈ leaves.map fun leaf => (joinDots leaf, countOf runs leaf) := by
    rw [← extracted.fields]
    exact List.mem_map_of_mem isInfo
  obtain ⟨leaf, isLeaf, same⟩ := List.mem_map.mp isEntry
  exact ⟨leaf, isLeaf, (Prod.mk.inj same).1.symm⟩

theorem covered_id (runs : List StoredRun) : Covered runs ["id"] := by
  refine ⟨_, List.mem_cons_self, rfl, ?_⟩
  intro isUserDefined
  cases isUserDefined

/-- There is a count of the runs, for the custom entries. -/
theorem insertCustomFields_ok {runs : List StoredRun} {leaves : List (List String)} {infos : List DefinedField}
    (extracted : Extracted runs leaves infos) :
    ∃ idCount, insertCustomFields infos = .ok (infos ++ customFields idCount) := by
  have isEntry : (joinDots ["id"], countOf runs ["id"]) ∈ infos.map fun info => (info.key, info.fieldCount) := by
    rw [extracted.fields]
    exact List.mem_map_of_mem (f := fun leaf => (joinDots leaf, countOf runs leaf))
      ((extracted.covers _).mpr (covered_id runs))
  obtain ⟨idField, isInfo, same⟩ := List.mem_map.mp isEntry
  have isId : idField.key = "id" := (Prod.mk.inj same).1.trans (by decide)
  cases found : infos.find? fun field => decide (field.key = "id") with
  | none => exact absurd (decide_eq_true isId) (List.find?_eq_none.mp found idField isInfo)
  | some first =>
      refine ⟨first.fieldCount, ?_⟩
      rw [insertCustomFields, found]

/-- The answer to a query of one client. -/
theorem getDefinedFields_ok {clients : List ClientRow} {byOrganization : Bool} {runs : List StoredRun}
    (ofOneClient : OfOneClient clients byOrganization runs) :
    ∃ leaves fields, getDefinedFields clients byOrganization runs = .ok fields ∧ Answered runs leaves fields := by
  obtain ⟨leaves, infos, isInfos, extracted⟩ := extractInfo_counts ofOneClient
  obtain ⟨idCount, withCustom⟩ := insertCustomFields_ok extracted
  have readable : ∀ field ∈ infos ++ customFields idCount, field.Readable := by
    intro field isField
    cases List.mem_append.mp isField with
    | inl isInfo =>
        obtain ⟨leaf, isLeaf, isKey⟩ := exists_leaf extracted isInfo
        exact readable_of_covered ((extracted.covers leaf).mp isLeaf) isKey (extracted.named field isInfo)
    | inr isCustom =>
        obtain ⟨name, key, notValues, _⟩ := customField_plain isCustom
        exact readable_of_undotted name key notValues
  have sanitizedReadable : ∀ field ∈ sanitizeDefinedFields (infos ++ customFields idCount), field.Readable := by
    intro field isField
    obtain ⟨original, isOriginal, rfl⟩ := List.mem_map.mp isField
    exact sanitized_readable (readable original isOriginal)
  obtain ⟨fields, named, sameEntries⟩ := insertReadableNames_ok sanitizedReadable
  refine ⟨leaves, fields, ?_, extracted.distinct, extracted.covers, idCount, ?_⟩
  · simp only [getDefinedFields, isInfos, withCustom, Raising.ok_bind, named]
  · have ofInfos : infos.map (fun info => info.sanitized.entry) =
        leaves.map fun leaf => (sanitizedText (joinDots leaf), countOf runs leaf) := by
      have mapped := congrArg (List.map fun entry : String × ℕ => (sanitizedText entry.1, entry.2)) extracted.fields
      rw [List.map_map, List.map_map] at mapped
      simpa only [sanitized_entry, Function.comp_def] using mapped
    have ofCustom : (customFields idCount).map (fun info => info.sanitized.entry) =
        (customFields idCount).map DefinedField.entry := by
      apply List.map_congr_left
      intro custom isCustom
      rw [sanitized_entry, sanitizedText_of_undotted (customField_plain isCustom).2.1]
      rfl
    rw [sameEntries, sanitizeDefinedFields, List.map_map, List.map_append]
    exact congrArg₂ _ ofInfos ofCustom

/-! ### When the answer counts what the runs define -/

section Answer

variable {runs : List StoredRun} {leaves : List (List String)} {fields : List DefinedField}

theorem shown_of_plain (plain : PlainMetrics runs) {leaf : List String} (covered : Covered runs leaf) :
    sanitizedText (joinDots leaf) = shownKey leaf := by
  by_cases isMetric : leaf.head? = some "values"
  · obtain ⟨metric, subField, rfl, known, run, isRun, stored⟩ := covered_metric covered isMetric
    exact sanitizedText_of_plain known (plain run isRun metric subField stored)
  · exact sanitizedText_of_other_field covered isMetric

/-- No path is shown under a custom key. -/
theorem shownKey_not_custom {leaf : List String} (covered : Covered runs leaf) : shownKey leaf ∉ customKeys := by
  intro isCustom
  obtain ⟨custom, ofCustom, isKey⟩ := List.mem_map.mp isCustom
  obtain ⟨_, undotted, _, notApiName⟩ := customField_plain ofCustom
  have head := head_shownKey covered
  obtain ⟨field, isField, hasLeaf, _⟩ := covered
  rw [← isKey, splitDots_of_undotted undotted, FieldDetails.HasLeaf.head hasLeaf] at head
  exact notApiName (Option.some.inj head ▸ List.mem_map_of_mem isField)

theorem Answered.entry_cases (answered : Answered runs leaves fields) {field : DefinedField}
    (isField : field ∈ fields) :
    (∃ leaf, Covered runs leaf ∧ field.key = sanitizedText (joinDots leaf) ∧ field.fieldCount = countOf runs leaf) ∨
      field.key ∈ customKeys := by
  obtain ⟨idCount, entries⟩ := answered.entries
  have isEntry : field.entry ∈ fields.map DefinedField.entry := List.mem_map_of_mem isField
  rw [entries] at isEntry
  cases List.mem_append.mp isEntry with
  | inl ofLeaf =>
      obtain ⟨leaf, isLeaf, same⟩ := List.mem_map.mp ofLeaf
      obtain ⟨sameKey, sameCount⟩ := Prod.mk.inj same
      exact .inl ⟨leaf, (answered.covers leaf).mp isLeaf, sameKey.symm, sameCount.symm⟩
  | inr ofCustom =>
      obtain ⟨custom, isCustom, same⟩ := List.mem_map.mp ofCustom
      rw [← customKeys_eq idCount, ← (Prod.mk.inj same).1]
      exact .inr (List.mem_map_of_mem isCustom)

theorem counts_of_plain (answered : Answered runs leaves fields) (plain : PlainMetrics runs) :
    CountsDefined runs fields where
  distinct := by
    obtain ⟨idCount, entries⟩ := answered.entries
    have keys : fields.map DefinedField.key = leaves.map shownKey ++ customKeys := by
      have firsts := congrArg (List.map Prod.fst) entries
      rw [List.map_map, List.map_append, List.map_map, List.map_map] at firsts
      refine firsts.trans (congrArg₂ _ (List.map_congr_left fun leaf isLeaf => ?_) (customKeys_eq idCount))
      exact shown_of_plain plain ((answered.covers leaf).mp isLeaf)
    rw [keys, List.nodup_append]
    refine ⟨answered.distinct.map_on fun first isFirst second isSecond same => ?_, by decide, ?_⟩
    · exact shownKey_injective ((answered.covers first).mp isFirst) ((answered.covers second).mp isSecond) same
    · intro key isShown custom isCustom same
      obtain ⟨leaf, isLeaf, rfl⟩ := List.mem_map.mp isShown
      exact shownKey_not_custom ((answered.covers leaf).mp isLeaf) (same ▸ isCustom)
  counted := by
    intro run isRun leaf stored
    have covered := covered_of_stored isRun stored
    obtain ⟨idCount, entries⟩ := answered.entries
    have isEntry : (sanitizedText (joinDots leaf), countOf runs leaf) ∈ fields.map DefinedField.entry := by
      rw [entries]
      exact List.mem_append_left _ (List.mem_map_of_mem (f := fun leaf =>
        (sanitizedText (joinDots leaf), countOf runs leaf)) ((answered.covers leaf).mpr covered))
    obtain ⟨field, isField, same⟩ := List.mem_map.mp isEntry
    obtain ⟨sameKey, sameCount⟩ := Prod.mk.inj same
    exact ⟨field, isField, sameKey.trans (shown_of_plain plain covered), sameCount⟩
  known := by
    intro field isField
    rcases answered.entry_cases isField with ⟨leaf, covered, isKey, isCount⟩ | isCustom
    · exact .inr ⟨leaf, covered, isKey.trans (shown_of_plain plain covered), isCount⟩
    · exact .inl isCustom

theorem plain_of_counts (answered : Answered runs leaves fields) (counts : CountsDefined runs fields) :
    PlainMetrics runs := by
  intro run isRun metric subField stored
  by_contra notPlain
  have isCovered := covered_of_stored isRun stored
  obtain ⟨_, _, same, known, _⟩ := covered_metric isCovered rfl
  simp only [List.cons.injEq, and_true, true_and] at same
  rw [← same.2] at known
  obtain ⟨field, isField, isKey, _⟩ := counts.counted run isRun _ stored
  rcases answered.entry_cases isField with ⟨leaf, covered, isSanitized, _⟩ | isCustom
  · exact shownKey_ne_sanitizedText known notPlain covered (isKey.symm.trans isSanitized)
  · exact shownKey_not_custom isCovered (isKey ▸ isCustom)

/-- The answer counts what the runs define exactly if their metrics are plain. -/
theorem getDefinedFields_counts_iff {clients : List ClientRow} {byOrganization : Bool}
    (ofOneClient : OfOneClient clients byOrganization runs) :
    ∃ fields, getDefinedFields clients byOrganization runs = .ok fields ∧
      (CountsDefined runs fields ↔ PlainMetrics runs) := by
  obtain ⟨leaves, fields, isFields, answered⟩ := getDefinedFields_ok ofOneClient
  exact ⟨fields, isFields, plain_of_counts answered, counts_of_plain answered⟩

end Answer

/-- A run that has reported one metric, with its variance. -/
def runReporting (id : ℕ) (metric : String) : StoredRun where
  id := id
  clientId := 1
  projectId := 1
  updated := 0
  created := 0
  trainingRunData := [("v", .object [(metric, .object [("v", .number 1), ("r", .number 1)])])]
  fits := by
    simp [trainingRunApiFields, FieldType.Fits, IsObjectOf, List.lookup_cons]

theorem ofOneClient_reporting (first second : String) :
    OfOneClient [] false [runReporting 1 first, runReporting 2 second] := by
  refine ⟨1, ?_⟩
  simp [runReporting]

/-- Two runs of one client that report a metric each, one with a dot in its name. -/
theorem getDefinedFields_counts_losses :
    ∃ fields, getDefinedFields [] false [runReporting 1 "loss", runReporting 2 "val.loss"] = .ok fields ∧
      (CountsDefined [runReporting 1 "loss", runReporting 2 "val.loss"] fields ↔
        PlainMetrics [runReporting 1 "loss", runReporting 2 "val.loss"]) :=
  getDefinedFields_counts_iff (ofOneClient_reporting "loss" "val.loss")

/-- The values of two metrics are shown under one key. -/
theorem getDefinedFields_collide : ¬∀ (clients : List ClientRow) (byOrganization : Bool) (runs : List StoredRun),
    OfOneClient clients byOrganization runs →
      ∃ fields, getDefinedFields clients byOrganization runs = .ok fields ∧ CountsDefined runs fields := by
  intro supposed
  obtain ⟨fields, isFields, counts⟩ := supposed [] false _ (ofOneClient_reporting "x.value_var" "x.value_stddev")
  obtain ⟨leaves, others, areFields, answered⟩ := getDefinedFields_ok (ofOneClient_reporting "x.value_var" "x.value_stddev")
  rw [isFields] at areFields
  cases areFields
  have stored : ["values", "x.value_var", "value"] ∈ storedLeaves (runReporting 1 "x.value_var") := by
    decide
  have plain := plain_of_counts answered counts _ List.mem_cons_self _ _ stored
  exact plain.2 (by decide)

end Zigopt.TrainingRuns
