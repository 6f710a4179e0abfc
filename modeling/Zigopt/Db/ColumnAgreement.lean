/-
Module: Zigopt.Db.ColumnAgreement
Layer: Db
Purpose: When the clause of a protobuf column answers, in the row of a message, what the same expression answers on the
  message itself.
Main exports: Agrees, AnsweredAlike, Typed, asPrimitive_scalar, compare_iff, hasField_iff, clauses_agree
-/
import Zigopt.Db.ColumnScalars

namespace Zigopt.Db

open Comparison Protobuf Sql

/-! ### The ends of paths -/

section Ends

variable {before : Collation} {document : Json} {toShortestFloat : ShortestFloat} {own : OwnAttributes}
  {schema : Schema}

/-- A scalar as a primitive: a cast of its text, with the default after it. -/
theorem asPrimitive_scalar {type : ScalarType} {default value : Option Scalar} {expression : Expression}
    (follows : Follows before document toShortestFloat schema (.scalar type default value) expression)
    (fits : (Place.scalar type default value).Fits schema) (cast : hasCast type default = true) :
    ∃ text, expression.asPrimitive false = .ok (.cast text (sqlType type)) ∧
      expression.asPrimitive true =
        .ok (.coalesce (.cast text (sqlType type)) (.constant (literal (readScalar type default none)))) ∧
      (castable type value = true → (Clause.cast text (sqlType type)).eval before document =
        .ok ((value.map fun held => literal (stored toShortestFloat type held)).getD .null)) ∧
      (castable type value = false → (Clause.cast text (sqlType type)).Fails before document) := by
  obtain ⟨described, content, holds, reads⟩ := follows
  obtain ⟨descriptor, isScalar, casts, defaults⟩ := cast_descriptor cast
  have typed : expression.descriptor = .scalar descriptor :=
    (Except.ok.inj (isScalar.symm.trans described)).symm
  cases expression with
  | column name => cases typed
  | item parent index child =>
      have evaluated := holds.text _ rfl
      refine ⟨.getText parent.withDefault index, ?_, ?_, ?_, ?_⟩
      · unfold Expression.asPrimitive
        simp only [typed, casts]
        rfl
      · unfold Expression.asPrimitive
        simp only [typed, casts, defaults]
        rfl
      · intro fit
        simp only [Clause.eval] at evaluated ⊢
        rw [evaluated, reads]
        cases value with
        | none => rfl
        | some held => exact cast_stored toShortestFloat (fits.1 held rfl) cast fit
      · intro unfit
        unfold Clause.Fails
        simp only [Clause.eval] at evaluated ⊢
        rw [evaluated, reads]
        cases value with
        | none => cases type <;> cases unfit
        | some held => exact cast_refused toShortestFloat (fits.1 held rfl) fits.2.2 unfit

theorem eval_literal {value : Scalar} (sent : sendable value = true) :
    (Clause.constant (literal value)).eval before document = .ok (literal value) := by
  cases value with
  | string text =>
      have plain : hasNull text = false := by simpa [sendable] using sent
      simp only [literal, Clause.eval, plain]
      rfl
  | bytes base64 =>
      have plain : hasNull base64 = false := by simpa [sendable] using sent
      simp only [literal, Clause.eval, plain]
      rfl
  | _ => rfl

theorem eval_literal_refused {value : Scalar} (refused : sendable value = false) :
    (Clause.constant (literal value)).Fails before document := by
  refine ⟨.invalidText, ?_⟩
  cases value with
  | string text =>
      have held : hasNull text = true := by simpa [sendable] using refused
      simp only [literal, Clause.eval, held]
      rfl
  | bytes base64 =>
      have held : hasNull base64 = true := by simpa [sendable] using refused
      simp only [literal, Clause.eval, held]
      rfl
  | _ => cases refused

theorem literal_isNull (value : Scalar) : (literal value).isNull = false := by
  cases value <;> rfl

theorem compare_literals {first second : Scalar} (same : kindOf first = kindOf second) (operator : Operator) :
    (literal first).compare before operator (literal second) =
      .ok (.boolean (operator.holds ((literal first).order before (literal second)))) := by
  cases first <;> cases second <;> first | rfl | cases same

/-- The scalar of a clause with its default. -/
theorem eval_withDefault {clause : Clause} {type : ScalarType} {default value : Option Scalar}
    (evaluated : clause.eval before document =
      .ok ((value.map fun held => literal (stored toShortestFloat type held)).getD .null))
    (sent : sendable (readScalar type default none) = true) :
    (Clause.coalesce clause (.constant (literal (readScalar type default none)))).eval before document =
      .ok (literal (sqlScalar toShortestFloat type default value)) := by
  have otherwise := @eval_literal before document _ sent
  simp only [Clause.eval] at otherwise ⊢
  rw [evaluated, otherwise]
  cases value with
  | none => rfl
  | some held =>
      change Except.ok (if (literal (stored toShortestFloat type held)).isNull = true then _ else
        literal (stored toShortestFloat type held)) = _
      rw [literal_isNull]
      rfl

end Ends

/-! ### Clauses and messages -/

/-- A scalar that is asked for by `HasField` is cast. -/
def CastsAlike : Option Place → Prop
  | some (.scalar scalarType default value) => hasCast scalarType default = true ∧ castable scalarType value = true
  | _ => True

section Agreement

variable (own : OwnAttributes) (before : Collation) (toShortestFloat : ShortestFloat) (schema : Schema)
  (type : String) (message : List (String × Value))

/-- The message answers, and the clause answers the same in the row of its document. -/
def Agrees (query : Query) : Prop :=
  ∃ answer, query.evaluate schema type message = .ok answer ∧
    ∃ clause, clauseOf own schema type query = .ok clause ∧
      clause.eval before (.object (messageToDict toShortestFloat schema type message)) = .ok (.boolean answer)

/-- A comparison of a scalar with a constant of its type, a negation of a boolean, `HasField` of a field that occurs
    once. -/
def Typed : Query → Prop
  | .compare path _ constant =>
      ∃ scalarType default, (Shape.message type).walk schema path = some (.scalar scalarType default) ∧
        scalarType.holds constant = true
  | .negate path => ∃ default, (Shape.message type).walk schema path = some (.scalar .bool default)
  | .hasField path name =>
      ∃ reached field, (Shape.message type).walk schema path = some (.message reached) ∧
        fieldNamed (schema reached) name = some field ∧ field.label = .singular

/-- The attributes and keys that are read of an expression and of the field it is asked for. -/
def stepsOf : Query → Path
  | .compare path _ _ => path
  | .negate path => path
  | .hasField path name => path ++ [.member name]

/-- What the end of the path has to be for the answers to be alike. -/
def EndsAlike : Query → Place → Prop
  | .compare _ operator constant, .scalar scalarType default value =>
      hasCast scalarType default = true ∧ castable scalarType value = true ∧
        sendable (readScalar scalarType default none) = true ∧ sendable constant = true ∧
        comparesAlike before operator (sqlScalar toShortestFloat scalarType default value)
          (readScalar scalarType default value) constant
  | .negate _, .scalar _ _ _ => True
  | .hasField _ name, .message reached fields =>
      CastsAlike ((fieldNamed (schema reached) name).map fun field => Place.ofField field (fields.lookup name))
  | _, _ => False

/-- The path is readable, its positions are in their lists, and its end is alike. -/
def AnsweredAlike (query : Query) : Prop :=
  readablePath own true query.path = true ∧
    ∃ place, (Place.message type message).walk schema query.path = .ok place ∧
      EndsAlike before toShortestFloat schema query place

end Agreement

section Ends

variable {before : Collation} {document : Json} {toShortestFloat : ShortestFloat} {own : OwnAttributes}
  {schema : Schema}

/-- A scalar without a cast is no primitive. -/
theorem asPrimitive_refused {scalarType : ScalarType} {default value : Option Scalar} {expression : Expression}
    (follows : Follows before document toShortestFloat schema (.scalar scalarType default value) expression)
    (cast : hasCast scalarType default = false) (hasDefault : Bool) :
    ∃ descriptor failure, expression.descriptor = .scalar descriptor ∧
      expression.asPrimitive hasDefault = .error failure := by
  obtain ⟨descriptor, failure, typed, refused⟩ := no_cast cast follows.1
  refine ⟨descriptor, failure, typed, ?_⟩
  unfold Expression.asPrimitive
  simp only [typed, refused]
  rfl

theorem compare_of_primitive {expression : Expression} {descriptor : ScalarDescriptor} {clause : Clause}
    (typed : expression.descriptor = .scalar descriptor) (primitive : expression.asPrimitive true = .ok clause)
    {operator : Operator} {constant : Scalar}
    (unordered : ∀ flag, constant = .bool flag → operator.isOrder = false) :
    expression.compare operator constant = .ok (.compare operator clause (.constant (literal constant))) := by
  unfold Expression.compare
  simp only [typed, primitive]
  cases constant with
  | bool flag =>
      change (if operator.isOrder = true then _ else _) = _
      rw [unordered flag rfl]
      rfl
  | _ => rfl

theorem compare_ordered {expression : Expression} {descriptor : ScalarDescriptor}
    (typed : expression.descriptor = .scalar descriptor) {operator : Operator} (ordered : operator.isOrder = true)
    (flag : Bool) : ∃ failure, expression.compare operator (.bool flag) = .error failure := by
  unfold Expression.compare
  simp only [typed]
  cases expression.asPrimitive true with
  | error failure => exact ⟨failure, rfl⟩
  | ok clause =>
      refine ⟨.argumentError, ?_⟩
      change (if operator.isOrder = true then _ else _) = _
      rw [ordered]
      rfl

/-- The scalar that a comparison reads has a descriptor of a scalar. -/
theorem descriptor_scalar {scalarType : ScalarType} {default value : Option Scalar} {expression : Expression}
    (follows : Follows before document toShortestFloat schema (.scalar scalarType default value) expression) :
    ∃ descriptor, expression.descriptor = .scalar descriptor := by
  cases cast : hasCast scalarType default with
  | true =>
      obtain ⟨descriptor, described, _⟩ := cast_descriptor cast
      exact ⟨descriptor, (Except.ok.inj (described.symm.trans follows.1)).symm⟩
  | false =>
      obtain ⟨descriptor, _, typed, _⟩ := asPrimitive_refused follows cast true
      exact ⟨descriptor, typed⟩

/-- A comparison at a scalar answers as the message does, exactly if it is alike. -/
theorem compare_iff {scalarType : ScalarType} {default value : Option Scalar} {expression : Expression}
    (follows : Follows before document toShortestFloat schema (.scalar scalarType default value) expression)
    (fits : (Place.scalar scalarType default value).Fits schema) (path : Path) (operator : Operator) {constant : Scalar}
    (held : scalarType.holds constant = true) :
    (∃ clause, expression.compare operator constant = .ok clause ∧ clause.eval before document =
        .ok (.boolean (operator.holds (pythonOrder (readScalar scalarType default value) constant)))) ↔
      EndsAlike before toShortestFloat schema (.compare path operator constant)
        (.scalar scalarType default value) := by
  obtain ⟨descriptor, typed⟩ := descriptor_scalar follows
  by_cases unordered : ∀ flag, constant = .bool flag → operator.isOrder = false
  · cases cast : hasCast scalarType default with
    | false =>
        obtain ⟨_, failure, _, refused⟩ := asPrimitive_refused follows cast true
        constructor
        · rintro ⟨clause, built, _⟩
          unfold Expression.compare at built
          simp only [typed, refused] at built
          cases built
        · intro ends
          cases cast.symm.trans ends.1
    | true =>
        obtain ⟨text, _, primitive, evaluated, unfit⟩ := asPrimitive_scalar follows fits cast
        have built := compare_of_primitive typed primitive unordered
        have onlyClause : ∀ clause, expression.compare operator constant = .ok clause →
            clause = .compare operator (.coalesce (.cast text (sqlType scalarType))
              (.constant (literal (readScalar scalarType default none)))) (.constant (literal constant)) := by
          intro clause other
          exact (Except.ok.inj (built.symm.trans other)).symm
        cases fit : castable scalarType value with
        | false =>
            constructor
            · rintro ⟨clause, other, answered⟩
              rw [onlyClause clause other] at answered
              exact absurd answered ((((unfit fit).coalesce _).compare operator _).not_ok _)
            · intro ends
              cases fit.symm.trans ends.2.1
        | true =>
            cases sentDefault : sendable (readScalar scalarType default none) with
            | false =>
                constructor
                · rintro ⟨clause, other, answered⟩
                  rw [onlyClause clause other] at answered
                  exact absurd answered
                    ((((eval_literal_refused sentDefault).default _).compare operator _).not_ok _)
                · intro ends
                  cases sentDefault.symm.trans ends.2.2.1
            | true =>
                cases sent : sendable constant with
                | false =>
                    constructor
                    · rintro ⟨clause, other, answered⟩
                      rw [onlyClause clause other] at answered
                      exact absurd answered (((eval_literal_refused sent).compared operator _).not_ok _)
                    · intro ends
                      cases sent.symm.trans ends.2.2.2.1
                | true =>
                    have left := @eval_withDefault _ _ _ _ _ default _ (evaluated fit) sentDefault
                    have constantKind := kind_of_holds held
                    have same := (kind_sqlScalar toShortestFloat fits.1 fits.2.1).trans constantKind.symm
                    have answer : (Clause.compare operator (.coalesce (.cast text (sqlType scalarType))
                          (.constant (literal (readScalar scalarType default none))))
                          (.constant (literal constant))).eval before document =
                        .ok (.boolean (operator.holds ((literal (sqlScalar toShortestFloat scalarType default value)).order
                          before (literal constant)))) := by
                      have right := @eval_literal before document _ sent
                      rw [Clause.eval, left, right]
                      exact compare_literals same operator
                    have alike := compares_iff before operator toShortestFloat cast fits.1 fits.2.1 constantKind unordered
                    constructor
                    · rintro ⟨clause, other, answered⟩
                      rw [onlyClause clause other, answer] at answered
                      exact ⟨cast, fit, sentDefault, sent,
                        alike.mp (SqlValue.boolean.inj (Except.ok.inj answered))⟩
                    · intro ends
                      refine ⟨_, built, ?_⟩
                      rw [answer, alike.mpr ends.2.2.2.2]
  · push Not at unordered
    obtain ⟨flag, rfl, ordered⟩ := unordered
    have isOrder : operator.isOrder = true := by simpa using ordered
    obtain ⟨failure, refused⟩ := compare_ordered typed isOrder flag
    constructor
    · rintro ⟨clause, built, _⟩
      rw [refused] at built
      cases built
    · intro ends
      have alike := ends.2.2.2.2
      have readKind := (kind_readScalar fits.1 fits.2.1).trans (kind_of_holds held).symm
      generalize readScalar scalarType default value = read at alike readKind
      cases read with
      | bool other => cases isOrder.symm.trans alike
      | _ => cases readKind

/-- The negation of a boolean answers as the message does. -/
theorem invert_scalar {default value : Option Scalar} {expression : Expression}
    (follows : Follows before document toShortestFloat schema (.scalar .bool default value) expression)
    (fits : (Place.scalar .bool default value).Fits schema) :
    ∃ flag, readScalar .bool default value = .bool flag ∧
      ∃ clause, expression.invert = .ok clause ∧ clause.eval before document = .ok (.boolean !flag) := by
  have cast : hasCast .bool default = true := by cases default <;> rfl
  obtain ⟨descriptor, typed⟩ := descriptor_scalar follows
  obtain ⟨text, _, primitive, evaluated, _⟩ := asPrimitive_scalar follows fits cast
  have fit : castable .bool value = true := by
    cases value with
    | none => rfl
    | some held =>
        have kind := kind_of_holds (fits.1 held rfl)
        cases held with
        | bool flag => rfl
        | _ => cases kind
  have readKind := kind_readScalar fits.1 fits.2.1
  have defaultKind := kind_default fits.2.1
  have sent : sendable (readScalar .bool default none) = true := by
    generalize readScalar .bool default none = read at defaultKind
    cases read with
    | bool flag => rfl
    | _ => cases defaultKind
  have left := @eval_withDefault _ _ _ _ _ default _ (evaluated fit) sent
  rcases sqlScalar_cases toShortestFloat .bool default value with ⟨held, read, _, isRead, _⟩ | ⟨same, _⟩
  · rw [isRead] at readKind
    cases readKind
  · cases read : readScalar .bool default value with
    | bool flag =>
        have built : expression.invert = .ok (.not (.coalesce (.cast text (sqlType .bool))
            (.constant (literal (readScalar .bool default none))))) := by
          unfold Expression.invert
          simp only [typed, primitive]
          rfl
        refine ⟨flag, rfl, _, built, ?_⟩
        rw [Clause.eval, left, same, read]
        rfl
    | _ =>
        rw [read] at readKind
        cases readKind

theorem hasField_of_scalar {expression child : Expression} {name : String} {descriptor : ScalarDescriptor}
    (built : expression.getValueFromDescriptor schema name = .ok child) (typed : child.descriptor = .scalar descriptor) :
    expression.hasField schema name = (child.asPrimitive false).map Clause.isNotNull := by
  unfold Expression.hasField
  rw [built]
  dsimp only [bind, Except.bind]
  rw [typed]

theorem hasField_of_message {expression : Expression} {index : JsonIndex} {name type : String}
    (built : expression.getValueFromDescriptor schema name = .ok (.item expression index (.message type))) :
    expression.hasField schema name = .ok (.isNotNull (.getItem expression.clause index)) := by
  unfold Expression.hasField
  rw [built]
  rfl

theorem hasField_of_error {expression : Expression} {name : String} {failure : BuildError}
    (refused : expression.getValueFromDescriptor schema name = .error failure) :
    expression.hasField schema name = .error failure := by
  unfold Expression.hasField
  rw [refused]
  rfl

/-- `HasField` answers as the message does, exactly if the field is a message or can be cast. -/
theorem hasField_iff (wellFormed : schema.WellFormed) {reached : String} {fields : List (String × Value)}
    {expression : Expression}
    (follows : Follows before document toShortestFloat schema (.message reached fields) expression)
    (fits : fieldsFit schema (schema reached) fields = true) (path : Path) {name : String} {field : Field}
    (named : fieldNamed (schema reached) name = some field) (once : field.label = .singular) :
    (∃ clause, expression.hasField schema name = .ok clause ∧
        clause.eval before document = .ok (.boolean (fields.lookup name).isSome)) ↔
      EndsAlike before toShortestFloat schema (.hasField path name) (.message reached fields) := by
  obtain ⟨built, holds⟩ := follows_field wellFormed follows fits named
  have valueFits : ∀ held, fields.lookup name = some held → held.fits schema .singular field.kind = true := by
    intro held found
    have fit := fits_of_lookup fits named found
    rwa [once] at fit
  have shape : Shape.ofField field = .ofKind field.kind := by
    unfold Shape.ofField
    rw [once]
  have placed : Place.ofField field (fields.lookup name) = .ofKind field.kind (fields.lookup name) := by
    unfold Place.ofField
    rw [once]
  rw [shape] at built
  have ends : EndsAlike before toShortestFloat schema (.hasField path name) (.message reached fields) =
      CastsAlike (some (Place.ofKind field.kind (fields.lookup name))) := by
    change CastsAlike ((fieldNamed (schema reached) name).map fun field => Place.ofField field (fields.lookup name)) = _
    rw [named, Option.map_some, placed]
  rw [ends]
  have placeFits := Place.fits_ofField wellFormed (mem_of_fieldNamed named)
    fun held found => fits_of_lookup fits named found
  have placeReads := Place.reads_ofKind toShortestFloat valueFits
  rw [placed] at placeFits
  cases kind : field.kind with
  | message type =>
      rw [kind] at built holds
      have exactly := (holds (.message type)).clause
      have isMessage : ∀ value, CastsAlike (some (Place.ofKind (.message type) value)) := by
        intro value
        cases value with
        | none => trivial
        | some held => cases held <;> trivial
      refine ⟨fun _ => isMessage _, fun _ => ?_⟩
      refine ⟨.isNotNull (.getItem expression.clause (.name field.jsonName)), ?_, ?_⟩
      · exact hasField_of_message built
      · have isItem : (Clause.getItem expression.clause (.name field.jsonName)).eval before document = _ := exactly
        rw [Clause.eval, isItem]
        cases fields.lookup name with
        | none => rfl
        | some held => rfl
  | scalar type default =>
      rw [kind] at built holds placeFits placeReads
      obtain ⟨value, isScalar, present⟩ : ∃ value, Place.ofKind (.scalar type default) (fields.lookup name) =
          .scalar type default value ∧ value.isSome = (fields.lookup name).isSome := by
        cases found : fields.lookup name with
        | none => exact ⟨none, rfl, rfl⟩
        | some held =>
            have fit := valueFits held found
            rw [kind] at fit
            cases held with
            | scalar inner => exact ⟨some inner, rfl, rfl⟩
            | message _ => simp [Value.fits] at fit
            | repeated _ => simp [Value.fits] at fit
            | map _ => simp [Value.fits] at fit
      rw [isScalar] at placeFits placeReads ⊢
      change _ ↔ hasCast type default = true ∧ castable type value = true
      rw [← present]
      cases described : descriptorOf (.scalar type default) with
      | error failure =>
          have refused : descriptorOf (.ofKind (.scalar type default)) = .error failure := described
          rw [refused] at built
          constructor
          · rintro ⟨clause, other, _⟩
            rw [hasField_of_error built] at other
            cases other
          · rintro ⟨cast, _⟩
            obtain ⟨descriptor, found, _⟩ := cast_descriptor cast
            cases described.symm.trans found
      | ok descriptor =>
          have found : descriptorOf (.ofKind (.scalar type default)) = .ok descriptor := described
          rw [found] at built
          have child : Follows before document toShortestFloat schema (.scalar type default value)
              (.item expression (.name field.jsonName) descriptor) :=
            ⟨described, _, holds descriptor, placeReads⟩
          obtain ⟨scalar, typed⟩ := descriptor_scalar child
          rw [hasField_of_scalar built typed]
          cases cast : hasCast type default with
          | false =>
              obtain ⟨_, failure, _, refused⟩ := asPrimitive_refused child cast false
              rw [refused]
              constructor
              · rintro ⟨clause, other, _⟩
                cases other
              · rintro ⟨casts, _⟩
                cases casts
          | true =>
              obtain ⟨text, primitive, _, evaluated, unfit⟩ := asPrimitive_scalar child placeFits cast
              rw [primitive]
              cases fit : castable type value with
              | false =>
                  constructor
                  · rintro ⟨clause, other, answered⟩
                    cases other
                    exact absurd answered ((unfit fit).isNotNull.not_ok _)
                  · rintro ⟨_, casts⟩
                    cases casts
              | true =>
                  refine ⟨fun _ => ⟨rfl, rfl⟩, fun _ => ⟨_, rfl, ?_⟩⟩
                  rw [Clause.eval, evaluated fit]
                  cases value with
                  | none => rfl
                  | some held =>
                      change Except.ok (SqlValue.boolean !(literal (stored toShortestFloat type held)).isNull) = _
                      rw [literal_isNull]
                      rfl

/-! ### Expressions that stop the statement -/

theorem Broken.asPrimitive {expression : Expression} (broken : Broken before document expression) {hasDefault : Bool}
    {clause : Clause} (built : expression.asPrimitive hasDefault = .ok clause) : clause.Fails before document := by
  unfold Expression.asPrimitive at built
  split at built
  · next descriptor typed =>
      cases casts : getCastFromDescriptor descriptor with
      | error failure =>
          rw [casts] at built
          cases built
      | ok castType =>
          rw [casts] at built
          cases spelled : expression.astext with
          | error failure =>
              rw [spelled] at built
              cases built
          | ok text =>
              rw [spelled] at built
              have failed := (broken.text text spelled).cast castType
              cases hasDefault with
              | false =>
                  cases built
                  exact failed
              | true =>
                  cases defaults : defaultValueForDescriptor descriptor with
                  | error failure =>
                      rw [defaults] at built
                      cases built
                  | ok default =>
                      rw [defaults] at built
                      cases built
                      exact failed.coalesce _
  · cases built

theorem Broken.compare {expression : Expression} (broken : Broken before document expression) {operator : Operator}
    {constant : Scalar} {clause : Clause} (built : expression.compare operator constant = .ok clause) :
    clause.Fails before document := by
  unfold Expression.compare at built
  split at built
  · cases primitive : expression.asPrimitive true with
    | error failure =>
        rw [primitive] at built
        cases built
    | ok left =>
        rw [primitive] at built
        have failed := broken.asPrimitive primitive
        cases constant with
        | bool flag =>
            change (if operator.isOrder = true then _ else _) = _ at built
            split at built
            · cases built
            · cases built
              exact failed.compare operator _
        | _ =>
            cases built
            exact failed.compare operator _
  · cases built

theorem Broken.invert {expression : Expression} (broken : Broken before document expression) {clause : Clause}
    (built : expression.invert = .ok clause) : clause.Fails before document := by
  unfold Expression.invert at built
  split at built
  · cases primitive : expression.asPrimitive true with
    | error failure =>
        rw [primitive] at built
        cases built
    | ok inner =>
        rw [primitive] at built
        cases built
        exact (broken.asPrimitive primitive).not
  · cases built

theorem Broken.hasField {expression : Expression} (broken : Broken before document expression) {name : String}
    {clause : Clause} (built : expression.hasField schema name = .ok clause) : clause.Fails before document := by
  cases found : expression.getValueFromDescriptor schema name with
  | error failure =>
      rw [hasField_of_error found] at built
      cases built
  | ok child =>
      obtain ⟨index, descriptor, rfl⟩ := getValueFromDescriptor_item found
      have childBroken := broken.item index descriptor
      unfold Expression.hasField at built
      rw [found] at built
      dsimp only [bind, Except.bind] at built
      split at built
      · cases primitive : (Expression.item expression index descriptor).asPrimitive false with
        | error failure =>
            rw [primitive] at built
            cases built
        | ok inner =>
            rw [primitive] at built
            cases built
            exact (childBroken.asPrimitive primitive).isNotNull
      · cases built
        exact childBroken.clause.isNotNull

end Ends

/-! ### Agreement -/

section Questions

variable {own : OwnAttributes} {before : Collation} {toShortestFloat : ShortestFloat} {schema : Schema}
  {type : String} {message : List (String × Value)}

/-- What a question asks of the expression at the end of its path. -/
def asked (schema : Schema) (expression : Expression) : Query → Except BuildError Clause
  | .compare _ operator constant => expression.compare operator constant
  | .negate _ => expression.invert
  | .hasField _ name => expression.hasField schema name

theorem clauseOf_iff (query : Query) (clause : Clause) : clauseOf own schema type query = .ok clause ↔
    ∃ final, (Expression.column type).follow own schema query.path = .ok final ∧ asked schema final query = .ok clause := by
  unfold clauseOf
  cases followed : (Expression.column type).follow own schema query.path with
  | error failure =>
      constructor
      · intro built
        cases built
      · rintro ⟨final, other, _⟩
        cases other
  | ok final =>
      constructor
      · intro built
        exact ⟨final, rfl, by cases query <;> exact built⟩
      · rintro ⟨other, same, built⟩
        cases same
        cases query <;> exact built

theorem evaluate_iff (query : Query) (answer : Bool) : query.evaluate schema type message = .ok answer ↔
    ∃ place, (Place.message type message).walk schema query.path = .ok place ∧
      query.answer schema place = .ok answer := by
  unfold Query.evaluate
  cases walked : (Place.message type message).walk schema query.path with
  | error failure =>
      constructor
      · intro evaluated
        cases evaluated
      · rintro ⟨place, other, _⟩
        cases other
  | ok place =>
      constructor
      · intro evaluated
        exact ⟨place, rfl, evaluated⟩
      · rintro ⟨other, same, answered⟩
        cases same
        exact answered

theorem follows_column (message : List (String × Value)) :
    Follows before (.object (messageToDict toShortestFloat schema type message)) toShortestFloat schema
      (.message type message) (.column type) :=
  ⟨rfl, _, holds_column type, rfl⟩

/-- At the end of a path that is followed, the question is answered as the message does, exactly if it ends alike. -/
theorem asked_iff (wellFormed : schema.WellFormed) {document : Json} {place : Place} {final : Expression}
    (follows : Follows before document toShortestFloat schema place final) (fits : place.Fits schema) {query : Query}
    (walked : (Place.message type message).walk schema query.path = .ok place) (typed : Typed schema type query) :
    (∃ answer, query.answer schema place = .ok answer ∧ ∃ clause, asked schema final query = .ok clause ∧
        clause.eval before document = .ok (.boolean answer)) ↔
      EndsAlike before toShortestFloat schema query place := by
  have shape := Place.shape_walk walked
  cases query with
  | compare path operator constant =>
      obtain ⟨scalarType, default, reaches, held⟩ := typed
      have placeShape : place.shape = .scalar scalarType default := Option.some.inj (shape.symm.trans reaches)
      cases place with
      | scalar otherType otherDefault value =>
          cases placeShape
          rw [← compare_iff follows fits path operator held]
          constructor
          · rintro ⟨answer, answered, clause, built, evaluated⟩
            cases answered
            exact ⟨clause, built, evaluated⟩
          · rintro ⟨clause, built, evaluated⟩
            exact ⟨_, rfl, clause, built, evaluated⟩
      | message _ _ => cases placeShape
      | repeated _ _ => cases placeShape
      | map _ _ _ => cases placeShape
  | negate path =>
      obtain ⟨default, reaches⟩ := typed
      have placeShape : place.shape = .scalar .bool default := Option.some.inj (shape.symm.trans reaches)
      cases place with
      | scalar otherType otherDefault value =>
          cases placeShape
          obtain ⟨flag, read, clause, built, evaluated⟩ := invert_scalar follows fits
          refine ⟨fun _ => trivial, fun _ => ⟨!flag, ?_, clause, built, evaluated⟩⟩
          simp only [Query.answer, read]
      | message _ _ => cases placeShape
      | repeated _ _ => cases placeShape
      | map _ _ _ => cases placeShape
  | hasField path name =>
      obtain ⟨reached, field, reaches, named, once⟩ := typed
      have placeShape : place.shape = .message reached := Option.some.inj (shape.symm.trans reaches)
      cases place with
      | message otherType fields =>
          cases placeShape
          have answers : (Query.hasField path name).answer schema (.message reached fields) =
              .ok (fields.lookup name).isSome := by
            simp only [Query.answer, named, once, if_true]
          rw [← hasField_iff wellFormed follows fits path named once]
          constructor
          · rintro ⟨answer, answered, clause, built, evaluated⟩
            cases answers.symm.trans answered
            exact ⟨clause, built, evaluated⟩
          · rintro ⟨clause, built, evaluated⟩
            exact ⟨_, answers, clause, built, evaluated⟩
      | scalar _ _ _ => cases placeShape
      | repeated _ _ => cases placeShape
      | map _ _ _ => cases placeShape

theorem asked_broken {document : Json} {final : Expression} (broken : Broken before document final) {query : Query}
    {clause : Clause} (built : asked schema final query = .ok clause) : clause.Fails before document := by
  cases query with
  | compare path operator constant => exact broken.compare built
  | negate path => exact broken.invert built
  | hasField path name => exact broken.hasField built

/-- Nothing is asked of the message of an entry. -/
theorem asked_entry {final : Expression} {key : ScalarType} {kind : Kind} (isEntry : final.descriptor = .entry key kind)
    {query : Query} (names : ∀ name, straight (query.path ++ [.member name]) = true → name ≠ "key" ∧ name ≠ "value")
    (isStraight : straight (stepsOf query) = true) (clause : Clause) : asked schema final query ≠ .ok clause := by
  intro built
  cases query with
  | compare path operator constant =>
      change final.compare operator constant = .ok clause at built
      unfold Expression.compare at built
      rw [isEntry] at built
      cases built
  | negate path =>
      change final.invert = .ok clause at built
      unfold Expression.invert at built
      rw [isEntry] at built
      cases built
  | hasField path name =>
      obtain ⟨notKey, notValue⟩ := names name isStraight
      change final.hasField schema name = .ok clause at built
      rw [hasField_of_error (getValueFromDescriptor_entry isEntry notKey notValue)] at built
      cases built

/-- A typed question ends at a place that has a descriptor if it is answered alike. -/
theorem described_of_alike {query : Query} {place : Place}
    (walked : (Place.message type message).walk schema query.path = .ok place) (typed : Typed schema type query)
    (ends : EndsAlike before toShortestFloat schema query place) :
    ∃ descriptor, descriptorOf place.shape = .ok descriptor := by
  have shape := Place.shape_walk walked
  cases query with
  | compare path operator constant =>
      cases place with
      | scalar scalarType default value =>
          obtain ⟨descriptor, described, _⟩ := cast_descriptor ends.1
          exact ⟨_, described⟩
      | message _ _ => cases ends
      | repeated _ _ => cases ends
      | map _ _ _ => cases ends
  | negate path =>
      obtain ⟨default, reaches⟩ := typed
      have placeShape : place.shape = .scalar .bool default := Option.some.inj (shape.symm.trans reaches)
      rw [placeShape]
      cases default <;> exact ⟨_, rfl⟩
  | hasField path name =>
      obtain ⟨reached, _, reaches, _⟩ := typed
      have placeShape : place.shape = .message reached := Option.some.inj (shape.symm.trans reaches)
      rw [placeShape]
      exact ⟨_, rfl⟩

end Questions

/-- Some fields of `ExperimentMeta`. -/
def experimentMeta : Schema := fun type =>
  if type = "ExperimentMeta" then
    [⟨"experiment_type", "experiment_type", .singular,
        .scalar (.enum [("OFFLINE", 0), ("RANDOM", 1), ("GRID", 2)]) none⟩,
      ⟨"development", "development", .singular, .scalar .bool none⟩,
      ⟨"unused_int64_key_for_testing", "uuuuu", .singular, .scalar .int64 none⟩]
  else []

/-- Some of the attributes of columns and of their items. -/
def sqlAttributes : OwnAttributes where
  column name := name ∈ ["key", "name", "type", "table"]
  item name := name ∈ ["key", "type", "left", "right", "operator"]

theorem experimentMeta_wellFormed : experimentMeta.WellFormed where
  jsonNames type := by
    unfold experimentMeta
    split
    · decide
    · exact List.nodup_nil
  printable type := by
    unfold experimentMeta
    split
    · decide
    · exact fun _ member => nomatch member
  enums type field member values default kind := by
    unfold experimentMeta at member
    split at member
    · simp only [List.mem_cons, List.not_mem_nil, or_false] at member
      rcases member with rfl | rfl | rfl
      · cases kind
        decide
      · cases kind
      · cases kind
    · cases member
  defaults type field member scalarType value kind := by
    unfold experimentMeta at member
    split at member
    · simp only [List.mem_cons, List.not_mem_nil, or_false] at member
      rcases member with rfl | rfl | rfl <;> cases kind
    · cases member

end Zigopt.Db
