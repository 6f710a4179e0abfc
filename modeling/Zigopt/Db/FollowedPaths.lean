/-
Module: Zigopt.Db.FollowedPaths
Layer: Db
Purpose: A path followed in the expressions of a column reads what the path reaches in the message, as long as its
  attributes are not those of SQL expressions and its keys are strings.
Main exports: Holds, Follows, Broken, follows_step, follow_inversion
-/
import Zigopt.Db.Column

namespace Zigopt.Db

open Comparison Protobuf Sql

/-! ### Paths -/

/-- Of the keys only a string that can be sent is read. -/
def plainStep : Step → Bool
  | .key (.string text) => !hasNull text
  | .key _ => false
  | _ => true

def unownedStep (own : OwnAttributes) (atColumn : Bool) : Step → Bool
  | .member name => !(if atColumn then own.column name else own.item name)
  | _ => true

/-- Every step is read, from the column or from an item on. -/
def readablePath (own : OwnAttributes) : Bool → Path → Bool
  | _, [] => true
  | atColumn, first :: rest => plainStep first && unownedStep own atColumn first && readablePath own false rest

/-- No integer key is followed by the name of a field that the entries of every map have. -/
def straight : Path → Bool
  | .key (.int _) :: .member name :: rest => name ≠ "key" && name ≠ "value" && straight rest
  | _ :: rest => straight rest
  | [] => true

theorem straight_tail {first : Step} {rest : Path} (isStraight : straight (first :: rest) = true) :
    straight rest = true := by
  unfold straight at isStraight
  split at isStraight
  · next isPair =>
      cases isPair
      rw [Bool.and_eq_true] at isStraight
      exact isStraight.2
  · next isCons =>
      cases isCons
      exact isStraight
  · next isNil => cases isNil

theorem straight_integer {value : ℤ} {name : String} {rest : Path}
    (isStraight : straight (.key (.int value) :: .member name :: rest) = true) : name ≠ "key" ∧ name ≠ "value" := by
  simp only [straight, Bool.and_eq_true, decide_eq_true_eq] at isStraight
  exact isStraight.1

theorem straight_of_append {path : Path} {name : String} (isStraight : straight (path ++ [.member name]) = true) :
    straight path = true := by
  induction path with
  | nil => rfl
  | cons first rest inductionHypothesis =>
      have later := inductionHypothesis (straight_tail isStraight)
      unfold straight
      split
      · next isPair =>
          cases isPair
          obtain ⟨notKey, notValue⟩ := straight_integer isStraight
          simp [notKey, notValue, straight_tail later]
      · next isCons =>
          cases isCons
          exact later
      · next isNil => cases isNil

/-! ### Descriptors of what a path comes to -/

def descriptorOf : Shape → Except BuildError Descriptor
  | .scalar type default => fieldDescriptorToScalarDescriptor (.scalar type default)
  | .message type => .ok (.message type)
  | .repeated kind => .ok (.field .repeated kind)
  | .map key kind => .ok (.field (.map key) kind)

theorem getJsonKeyOfField_eq (field : Field) : getJsonKeyOfField field = descriptorOf (.ofField field) := by
  unfold getJsonKeyOfField Shape.ofField
  cases field.label with
  | singular =>
      cases field.kind with
      | scalar type default => rfl
      | message type => rfl
  | repeated => rfl
  | map key => rfl

theorem getJsonKey_position (schema : Schema) (kind : Kind) (position : ℤ) :
    getJsonKey schema (.field .repeated kind) (.position position) = descriptorOf (.ofKind kind) := by
  cases kind with
  | scalar type default => rfl
  | message type => rfl

/-- The values of a map have no explicit default. -/
theorem getJsonKey_name (schema : Schema) {kind : Kind} (plain : ∀ type explicit, kind ≠ .scalar type (some explicit))
    (key : ScalarType) {index : JsonIndex} (isKey : ∀ position, index ≠ .position position) :
    getJsonKey schema (.field (.map key) kind) index = descriptorOf (.ofKind kind) := by
  have next : getJsonKey schema (.field (.map key) kind) index = nextDescriptorForFieldDescriptor kind := by
    cases index with
    | name text => rfl
    | position position => exact absurd rfl (isKey position)
    | boolean value => rfl
  rw [next]
  cases kind with
  | message type => rfl
  | scalar type default =>
      cases default with
      | some explicit => exact absurd rfl (plain type explicit)
      | none =>
          unfold nextDescriptorForFieldDescriptor Shape.ofKind descriptorOf fieldDescriptorToScalarDescriptor
          cases nextScalarDescriptor type none with
          | error failure => rfl
          | ok descriptor => rfl

theorem getJsonKey_jsonName {schema : Schema} (wellFormed : schema.WellFormed) {type : String} {field : Field}
    (member : field ∈ schema type) :
    getJsonKey schema (.message type) (.name field.jsonName) = descriptorOf (.ofField field) := by
  rw [← getJsonKeyOfField_eq]
  unfold getJsonKey
  simp only [fieldsOf, find_jsonName (wellFormed.jsonNames type) member]

/-! ### What an expression is in a row -/

section Row

variable (before : Collation) (document : Json)

/-- The expression reads the content, and so does its text. -/
structure Holds (expression : Expression) (content : Option Json) : Prop where
  clause : expression.clause.eval before document = .ok (itemOf content)
  text : ∀ text, expression.astext = .ok text → text.eval before document = .ok (textOf content)

/-- Whatever is asked of the expression, the statement stops. -/
structure Broken (expression : Expression) : Prop where
  clause : expression.clause.Fails before document
  text : ∀ text, expression.astext = .ok text → text.Fails before document

variable {before document}

theorem holds_column (type : String) : Holds before document (.column type) (some document) :=
  ⟨rfl, fun _ built => nomatch built⟩

theorem documentItem_defaultJson (descriptor : Descriptor) (index : JsonIndex) :
    documentItem (defaultJson descriptor) index = none := by
  have nothing : documentItem (.object []) index = none := by cases index <;> rfl
  unfold defaultJson
  split
  · cases index with
    | name key => rfl
    | position position => exact atIndex_nil position
    | boolean value => rfl
  · exact nothing

/-- An item of an expression holds the item of its document. -/
theorem Holds.item {expression : Expression} {content : Option Json} (holds : Holds before document expression content)
    {index : JsonIndex} (checked : index.check = .ok ()) (descriptor : Descriptor) :
    Holds before document (.item expression index descriptor)
      (documentItem (content.getD (defaultJson expression.descriptor)) index) := by
  constructor
  · exact Clause.eval_getItem holds.clause checked (documentItem_defaultJson expression.descriptor index)
  · intro text built
    cases built
    exact Clause.eval_getText holds.clause checked

theorem broken_of_check {expression : Expression} {index : JsonIndex} {failure : SqlError}
    (refused : index.check = .error failure) (descriptor : Descriptor) :
    Broken before document (.item expression index descriptor) := by
  constructor
  · exact Clause.fails_getItem_of_check refused
  · intro text built
    cases built
    exact Clause.fails_getText_of_check refused

/-- An item of what fails, fails. -/
theorem Broken.item {expression : Expression} (broken : Broken before document expression) (index : JsonIndex)
    (descriptor : Descriptor) : Broken before document (.item expression index descriptor) := by
  constructor
  · exact broken.clause.getItem index
  · intro text built
    cases built
    exact (broken.clause.coalesce _).getText index

/-! ### One step -/

theorem realGetitem_item {schema : Schema} {expression next : Expression} {index : JsonIndex}
    (built : expression.realGetitem schema index = .ok next) :
    ∃ descriptor, next = .item expression index descriptor ∧
      getJsonKey schema expression.descriptor index = .ok descriptor := by
  unfold Expression.realGetitem at built
  split at built
  · cases built
  · cases found : getJsonKey schema expression.descriptor index with
    | error failure =>
        rw [found] at built
        cases built
    | ok descriptor =>
        rw [found] at built
        cases built
        exact ⟨descriptor, rfl, rfl⟩

theorem getitem_item {schema : Schema} {expression next : Expression} {index : JsonIndex}
    (built : expression.getitem schema index = .ok next) :
    ∃ descriptor, next = .item expression index descriptor ∧
      getJsonKey schema expression.descriptor index = .ok descriptor := by
  unfold Expression.getitem at built
  split at built
  · exact realGetitem_item built
  · exact realGetitem_item built
  · cases built

theorem getValueFromDescriptor_item {schema : Schema} {expression next : Expression} {name : String}
    (built : expression.getValueFromDescriptor schema name = .ok next) :
    ∃ index descriptor, next = .item expression index descriptor := by
  unfold Expression.getValueFromDescriptor at built
  split at built
  · obtain ⟨descriptor, isItem, _⟩ := realGetitem_item built
    exact ⟨_, descriptor, isItem⟩
  · cases built

/-- What is read of an expression is an item of it. -/
theorem read_item {own : OwnAttributes} {schema : Schema} {expression next : Expression} {first : Step}
    (built : expression.read own schema first = .ok next) :
    ∃ index descriptor, next = .item expression index descriptor := by
  cases first with
  | member name =>
      change expression.getattr own schema name = .ok next at built
      unfold Expression.getattr at built
      split at built
      · cases built
      · exact getValueFromDescriptor_item built
  | index position =>
      change expression.getitem schema (.position position) = .ok next at built
      obtain ⟨descriptor, isItem, _⟩ := getitem_item built
      exact ⟨_, descriptor, isItem⟩
  | key key =>
      cases key with
      | string text =>
          change expression.getitem schema (.name text) = .ok next at built
          obtain ⟨descriptor, isItem, _⟩ := getitem_item built
          exact ⟨_, descriptor, isItem⟩
      | int value =>
          change expression.getitem schema (.position value) = .ok next at built
          obtain ⟨descriptor, isItem, _⟩ := getitem_item built
          exact ⟨_, descriptor, isItem⟩
      | bool value =>
          change expression.getitem schema (.boolean value) = .ok next at built
          obtain ⟨descriptor, isItem, _⟩ := getitem_item built
          exact ⟨_, descriptor, isItem⟩
      | float value => cases built
      | bytes base64 => cases built

/-- Reading on from what fails, fails. -/
theorem Broken.read {own : OwnAttributes} {schema : Schema} {expression next : Expression}
    (broken : Broken before document expression) {first : Step}
    (built : expression.read own schema first = .ok next) : Broken before document next := by
  obtain ⟨index, descriptor, rfl⟩ := read_item built
  exact broken.item index descriptor

theorem Broken.follow {own : OwnAttributes} {schema : Schema} {expression final : Expression}
    (broken : Broken before document expression) {path : Path}
    (built : expression.follow own schema path = .ok final) : Broken before document final := by
  induction path generalizing expression with
  | nil =>
      cases built
      exact broken
  | cons first rest inductionHypothesis =>
      rw [Expression.follow] at built
      cases step : expression.read own schema first with
      | error failure =>
          rw [step] at built
          cases built
      | ok next =>
          rw [step] at built
          exact inductionHypothesis (broken.read step) built

/-! ### Expressions that follow a place -/

variable (before document) in
/-- The expression is typed as the place and reads the document under it. -/
def Follows (toShortestFloat : ShortestFloat) (schema : Schema) (place : Place) (expression : Expression) : Prop :=
  descriptorOf place.shape = .ok expression.descriptor ∧
    ∃ content, Holds before document expression content ∧ place.Reads toShortestFloat schema content

variable {toShortestFloat : ShortestFloat} {own : OwnAttributes} {schema : Schema}

theorem check_jsonName (wellFormed : schema.WellFormed) {type : String} {field : Field}
    (member : field ∈ schema type) : (JsonIndex.name field.jsonName).check = .ok () := by
  have printable : hasNull field.jsonName = false := by
    unfold hasNull
    rw [List.any_eq_false]
    intro character inName isNull
    rw [decide_eq_true_eq] at isNull
    exact wellFormed.printable type field member (isNull ▸ inName)
  exact check_name printable

/-- A field of a message: its expression, and the document under its JSON name. -/
theorem follows_field (wellFormed : schema.WellFormed) {type : String} {fields : List (String × Value)}
    {expression : Expression} (follows : Follows before document toShortestFloat schema (.message type fields) expression)
    (fits : fieldsFit schema (schema type) fields = true) {name : String} {field : Field}
    (named : fieldNamed (schema type) name = some field) :
    expression.getValueFromDescriptor schema name =
        (descriptorOf (.ofField field)).map (fun next => .item expression (.name field.jsonName) next) ∧
      ∀ next, Holds before document (.item expression (.name field.jsonName) next)
        ((fields.lookup name).map (Value.toJson toShortestFloat schema field.kind)) := by
  obtain ⟨typed, content, holds, reads⟩ := follows
  have isMessage : expression.descriptor = .message type := (Except.ok.inj typed).symm
  constructor
  · unfold Expression.getValueFromDescriptor Expression.realGetitem
    simp only [isMessage, fieldsOf, named, getJsonKey_jsonName wellFormed (mem_of_fieldNamed named)]
  · intro next
    have child := holds.item (check_jsonName wellFormed (mem_of_fieldNamed named)) next
    have asDefault : content.getD (defaultJson expression.descriptor) =
        .object (fieldsJson toShortestFloat schema (schema type) fields) := by
      rw [isMessage]
      exact reads
    rw [asDefault] at child
    rw [← lookup_fieldsJson toShortestFloat (wellFormed.jsonNames type) fits named]
    exact child

theorem follows_index {kind : Kind} {items : List Value} {expression : Expression}
    (follows : Follows before document toShortestFloat schema (.repeated kind items) expression) (position : ℤ) :
    expression.getitem schema (.position position) =
        (descriptorOf (.ofKind kind)).map (fun next => .item expression (.position position) next) ∧
      ∀ next, Holds before document (.item expression (.position position) next)
        ((atIndex items position).map (Value.toJson toShortestFloat schema kind)) := by
  obtain ⟨typed, content, holds, reads⟩ := follows
  have isField : expression.descriptor = .field .repeated kind := (Except.ok.inj typed).symm
  constructor
  · unfold Expression.getitem Expression.realGetitem
    simp only [isField, getJsonKey_position]
  · intro next
    have child := @Holds.item _ _ _ _ holds (.position position) rfl next
    have asDefault : content.getD (defaultJson expression.descriptor) =
        .array (itemsJson toShortestFloat schema kind items) := by
      rw [isField]
      exact reads
    rw [asDefault] at child
    rw [← atIndex_map, ← itemsJson_eq_map]
    exact child

theorem getitem_map {key : ScalarType} {kind : Kind} {expression : Expression}
    (isField : expression.descriptor = .field (.map key) kind) (index : JsonIndex) :
    expression.getitem schema index =
      (getJsonKey schema (.field (.map key) kind) index).map (fun next => .item expression index next) := by
  unfold Expression.getitem Expression.realGetitem
  cases index with
  | name text => simp only [isField]
  | position position => simp only [isField]
  | boolean value => simp only [isField]

theorem follows_key {kind : Kind} {entries : List (Scalar × Value)} {expression : Expression}
    (follows : Follows before document toShortestFloat schema (.map .string kind entries) expression)
    (fits : (Place.map .string kind entries).Fits schema) {text : String} (plain : hasNull text = false) :
    expression.getitem schema (.name text) =
        (descriptorOf (.ofKind kind)).map (fun next => .item expression (.name text) next) ∧
      ∀ next, Holds before document (.item expression (.name text) next)
        ((entries.lookup (.string text)).map (Value.toJson toShortestFloat schema kind)) := by
  obtain ⟨typed, content, holds, reads⟩ := follows
  have isField : expression.descriptor = .field (.map .string) kind := (Except.ok.inj typed).symm
  constructor
  · rw [getitem_map isField, @getJsonKey_name schema _ fits.2.1 .string (.name text) fun _ same => nomatch same]
  · intro next
    have child := holds.item (check_name plain) next
    have asDefault : content.getD (defaultJson expression.descriptor) =
        .object (entriesJson toShortestFloat schema kind entries) := by
      rw [isField]
      exact reads
    rw [asDefault] at child
    rw [← lookup_entriesJson toShortestFloat fits.1]
    exact child

/-- A step that is read goes to an expression that follows the next place, if this has a descriptor. -/
theorem follows_step (wellFormed : schema.WellFormed) {place next : Place} {expression : Expression} {first : Step}
    (follows : Follows before document toShortestFloat schema place expression) (fits : place.Fits schema)
    (stepped : place.step schema first = .ok next) (plain : plainStep first = true)
    (unowned : unownedStep own expression.isColumn first = true) :
    ∃ index, expression.read own schema first = (descriptorOf next.shape).map (fun child => .item expression index child) ∧
      ∀ child, descriptorOf next.shape = .ok child →
        Follows before document toShortestFloat schema next (.item expression index child) := by
  have shapes := Place.shape_step stepped
  rcases Place.step_cases stepped with ⟨type, fields, name, field, rfl, rfl, named, rfl⟩ |
    ⟨kind, items, position, item, rfl, rfl, reached, rfl⟩ | ⟨keyType, kind, entries, key, rfl, rfl, typed, rfl⟩
  · obtain ⟨built, holds⟩ := follows_field wellFormed follows fits named
    have shape : (Place.ofField field (fields.lookup name)).shape = .ofField field := by
      simpa [Place.shape, Shape.step, named] using shapes.symm
    refine ⟨.name field.jsonName, ?_, ?_⟩
    · have notOwned : expression.owns own name = false := by simpa [unownedStep, Expression.owns] using unowned
      change expression.getattr own schema name = _
      unfold Expression.getattr
      rw [notOwned, shape, ← built]
      rfl
    · intro child described
      exact ⟨described, _, holds child,
        Place.reads_ofField toShortestFloat fun held found => fits_of_lookup fits named found⟩
  · obtain ⟨built, holds⟩ := follows_index follows position
    have shape : (Place.ofKind kind (some item)).shape = .ofKind kind := by
      simpa [Place.shape, Shape.step] using shapes.symm
    refine ⟨.position position, shape ▸ built, ?_⟩
    intro child described
    have exactly := holds child
    rw [reached] at exactly
    refine ⟨described, _, exactly, Place.reads_ofKind toShortestFloat ?_⟩
    intro held same
    cases same
    exact fits_of_mem_items fits.1 (mem_of_atIndex reached)
  · cases key with
    | string text =>
        cases keyType with
        | string =>
            obtain ⟨built, holds⟩ := follows_key follows fits (by simpa [plainStep] using plain)
            have shape : (Place.ofKind kind (entries.lookup (.string text))).shape = .ofKind kind := by
              simpa [Place.shape, Shape.step, ScalarType.holds] using shapes.symm
            refine ⟨.name text, shape ▸ built, ?_⟩
            intro child described
            exact ⟨described, _, holds child,
              Place.reads_ofKind toShortestFloat fun held found => fits_of_lookup_entries fits.1 found⟩
        | _ => cases typed
    | _ => cases plain

/-! ### Whole paths -/

/-- Only a scalar may have no descriptor. -/
theorem descriptorOf_error {shape : Shape} {failure : BuildError} (refused : descriptorOf shape = .error failure) :
    ∃ type default, shape = .scalar type default := by
  cases shape with
  | scalar type default => exact ⟨type, default, rfl⟩
  | message type => cases refused
  | repeated kind => cases refused
  | map key kind => cases refused

/-- A readable path is followed to an expression of the place that it reaches. -/
theorem follow_of_readable (wellFormed : schema.WellFormed) {place reached : Place} {expression : Expression}
    {path : Path} (follows : Follows before document toShortestFloat schema place expression)
    (fits : place.Fits schema) (walked : place.walk schema path = .ok reached)
    (readable : readablePath own expression.isColumn path = true) {descriptor : Descriptor}
    (described : descriptorOf reached.shape = .ok descriptor) :
    ∃ final, expression.follow own schema path = .ok final ∧
      Follows before document toShortestFloat schema reached final := by
  induction path generalizing place expression with
  | nil =>
      cases walked
      exact ⟨expression, rfl, follows⟩
  | cons first rest inductionHypothesis =>
      rw [readablePath, Bool.and_eq_true, Bool.and_eq_true] at readable
      obtain ⟨⟨plain, unowned⟩, later⟩ := readable
      rw [Place.walk] at walked
      cases stepped : place.step schema first with
      | error failure =>
          rw [stepped] at walked
          cases walked
      | ok next =>
          rw [stepped] at walked
          obtain ⟨index, read, holds⟩ := follows_step wellFormed follows fits stepped plain unowned
          cases nextDescribed : descriptorOf next.shape with
          | error failure =>
              -- the walk ends at a scalar, which has a descriptor here
              obtain ⟨type, default, isScalar⟩ := descriptorOf_error nextDescribed
              cases rest with
              | nil =>
                  cases walked
                  rw [described] at nextDescribed
                  cases nextDescribed
              | cons second others =>
                  have onward := Place.shape_walk walked
                  rw [isScalar] at onward
                  cases second <;> cases onward
          | ok child =>
              rw [Expression.follow, read, nextDescribed]
              exact inductionHypothesis (holds child nextDescribed) (Place.fits_step wellFormed fits stepped) walked later

/-- An integer key reads the message of an entry. -/
theorem read_integer {key : ScalarType} {kind : Kind} {expression next : Expression}
    (isField : expression.descriptor = .field (.map key) kind) {value : ℤ}
    (read : expression.read own schema (.key (.int value)) = .ok next) :
    next.descriptor = .entry key kind ∧ next.isColumn = false := by
  change expression.getitem schema (.position value) = .ok next at read
  rw [getitem_map isField] at read
  cases read
  exact ⟨rfl, rfl⟩

/-- An entry has two fields. -/
theorem getValueFromDescriptor_entry {key : ScalarType} {kind : Kind} {expression : Expression}
    (isEntry : expression.descriptor = .entry key kind) {name : String} (notKey : name ≠ "key")
    (notValue : name ≠ "value") : expression.getValueFromDescriptor schema name = .error .attributeError := by
  have missing : fieldNamed (entryFields key kind) name = none := by
    simp [fieldNamed, entryFields, notKey.symm, notValue.symm]
  unfold Expression.getValueFromDescriptor
  rw [isEntry]
  simp only [fieldsOf, missing]

theorem read_described {described : Except BuildError Descriptor} {expression child : Expression} {index : JsonIndex}
    (read : described.map (fun next => Expression.item expression index next) = .ok child) :
    ∃ descriptor, described = .ok descriptor ∧ Expression.item expression index descriptor = child := by
  cases described with
  | error failure => cases read
  | ok descriptor => exact ⟨descriptor, rfl, Except.ok.inj read⟩

theorem read_owned {expression : Expression} {first : Step}
    (owned : ¬unownedStep own expression.isColumn first = true) (child : Expression) :
    expression.read own schema first ≠ .ok child := by
  cases first with
  | member name =>
      have owns : expression.owns own name = true := by simpa [unownedStep, Expression.owns] using owned
      change expression.getattr own schema name ≠ .ok child
      unfold Expression.getattr
      rw [if_pos owns]
      intro read
      cases read
  | index position => exact absurd rfl owned
  | key key => exact absurd rfl owned

/-- A key that is no string, or holds a null character: the statement stops, or the message of an entry is read. -/
theorem refused_step {place next : Place} {expression child : Expression} {first : Step}
    (refused : ¬plainStep first = true)
    (follows : Follows before document toShortestFloat schema place expression)
    (stepped : place.step schema first = .ok next) (read : expression.read own schema first = .ok child) :
    Broken before document child ∨
      ∃ key kind value, first = .key (.int value) ∧ child.descriptor = .entry key kind ∧ next.shape = .ofKind kind := by
  have shapes := Place.shape_step stepped
  rcases Place.step_cases stepped with ⟨type, fields, name, field, rfl, rfl, named, rfl⟩ |
    ⟨kind, items, position, item, rfl, rfl, reached, rfl⟩ | ⟨keyType, kind, entries, key, rfl, rfl, typed, rfl⟩
  · exact absurd rfl refused
  · exact absurd rfl refused
  · have isField : expression.descriptor = .field (.map keyType) kind := (Except.ok.inj follows.1).symm
    have shape : (Place.ofKind kind (entries.lookup key)).shape = .ofKind kind := by
      simpa [Place.shape, Shape.step, typed] using shapes.symm
    cases key with
    | string text =>
        have held : hasNull text = true := by simpa [plainStep] using refused
        obtain ⟨descriptor, rfl, _⟩ := @getitem_item _ _ _ (.name text) read
        exact .inl (broken_of_check (check_name_refused held) descriptor)
    | bool value =>
        obtain ⟨descriptor, rfl, _⟩ := @getitem_item _ _ _ (.boolean value) read
        exact .inl (@broken_of_check _ _ _ _ .undefinedOperator rfl descriptor)
    | int value => exact .inr ⟨keyType, kind, value, rfl, (read_integer isField read).1, shape⟩
    | float value => cases read
    | bytes base64 => cases read

/-- Nothing but the two fields of an entry is read of what an integer key reads. -/
theorem follow_entry {next reached : Place} {child final : Expression} {first : Step} {rest : Path} {key : ScalarType}
    {kind : Kind} {value : ℤ} (isInteger : first = .key (.int value)) (isEntry : child.descriptor = .entry key kind)
    (shape : next.shape = .ofKind kind) (walked : next.walk schema rest = .ok reached)
    (followed : child.follow own schema rest = .ok final) (isStraight : straight (first :: rest) = true) :
    (∃ key kind, final.descriptor = .entry key kind) ∧
      ∀ name, straight ((first :: rest) ++ [.member name]) = true → name ≠ "key" ∧ name ≠ "value" := by
  subst isInteger
  cases rest with
  | nil =>
      cases followed
      exact ⟨⟨key, kind, isEntry⟩, fun name longer => straight_integer longer⟩
  | cons second others =>
      exfalso
      cases second with
      | member name =>
          obtain ⟨notKey, notValue⟩ := straight_integer isStraight
          have stops : ∃ failure, child.read own schema (.member name) = .error failure := by
            change ∃ failure, child.getattr own schema name = .error failure
            unfold Expression.getattr
            split
            · exact ⟨_, rfl⟩
            · exact ⟨_, getValueFromDescriptor_entry isEntry notKey notValue⟩
          obtain ⟨failure, stopped⟩ := stops
          rw [Expression.follow, stopped] at followed
          cases followed
      | index position =>
          have onward := Place.shape_walk walked
          rw [shape] at onward
          cases kind <;> cases onward
      | key key =>
          have onward := Place.shape_walk walked
          rw [shape] at onward
          cases kind <;> cases onward

/-- What following a path says of it: it was readable, or the statement stops, or it ends at an integer key. -/
theorem follow_inversion (wellFormed : schema.WellFormed) {place reached : Place} {expression final : Expression}
    {path : Path} (follows : Follows before document toShortestFloat schema place expression)
    (fits : place.Fits schema) (walked : place.walk schema path = .ok reached)
    (followed : expression.follow own schema path = .ok final) (isStraight : straight path = true) :
    (readablePath own expression.isColumn path = true ∧
        Follows before document toShortestFloat schema reached final) ∨
      Broken before document final ∨
      ((∃ key kind, final.descriptor = .entry key kind) ∧
        ∀ name, straight (path ++ [.member name]) = true → name ≠ "key" ∧ name ≠ "value") := by
  induction path generalizing place expression with
  | nil =>
      cases walked
      cases followed
      exact .inl ⟨rfl, follows⟩
  | cons first rest inductionHypothesis =>
      rw [Place.walk] at walked
      rw [Expression.follow] at followed
      cases stepped : place.step schema first with
      | error failure =>
          rw [stepped] at walked
          cases walked
      | ok next =>
          rw [stepped] at walked
          cases read : expression.read own schema first with
          | error failure =>
              rw [read] at followed
              cases followed
          | ok child =>
              rw [read] at followed
              by_cases unowned : unownedStep own expression.isColumn first = true
              · by_cases plain : plainStep first = true
                · obtain ⟨index, isRead, holds⟩ := follows_step wellFormed follows fits stepped plain unowned
                  obtain ⟨descriptor, described, isItem⟩ := read_described (isRead.symm.trans read)
                  have childFollows := holds descriptor described
                  rw [isItem] at childFollows
                  have notColumn : child.isColumn = false := isItem ▸ rfl
                  rcases inductionHypothesis childFollows (Place.fits_step wellFormed fits stepped) walked followed
                    (straight_tail isStraight) with ⟨later, ends⟩ | broken | ⟨isEntry, names⟩
                  · refine .inl ⟨?_, ends⟩
                    rw [readablePath, plain, unowned, ← notColumn, later]
                    rfl
                  · exact .inr (.inl broken)
                  · exact .inr (.inr ⟨isEntry, fun name longer => names name (straight_tail longer)⟩)
                · rcases refused_step plain follows stepped read with broken | ⟨key, kind, value, isInteger, isEntry, shape⟩
                  · exact .inr (.inl (broken.follow followed))
                  · exact .inr (.inr (follow_entry isInteger isEntry shape walked followed isStraight))
              · exact absurd read (read_owned unowned child)

end Row

end Zigopt.Db
