/-
Module: Zigopt.Lib.Protobuf
Layer: Lib
Purpose: Protobuf messages over any schema: descriptors, messages, reading them along a path of attributes,
  positions and keys as Python does, and the JSON document that `MessageToDict` makes of them.
Main exports: ScalarType, Field, Schema, Value, Value.fits, Step, Place, Place.walk, Shape, Query,
  Query.evaluate, Value.toJson, Place.Fits, Place.Reads, fits_step, lookup_fieldsJson
-/
import Mathlib.Data.List.Nodup
import Zigopt.Lib.Comparison
import Zigopt.Lib.Json

namespace Protobuf

open Comparison

/-! ### Scalars -/

inductive Scalar where
  | bool (value : Bool)
  | int (value : ℤ)
  | float (value : FloatValue)
  | string (text : String)
  | bytes (base64 : String)
  deriving DecidableEq, Repr

/-- The scalar types of the protobuf language. -/
inductive ScalarType where
  | double
  | float
  | int32
  | int64
  | uint32
  | uint64
  | sint32
  | sint64
  | fixed32
  | fixed64
  | sfixed32
  | sfixed64
  | bool
  | string
  | bytes
  | enum (values : List (String × ℤ))
  deriving DecidableEq, Repr

namespace ScalarType

def isEnum : ScalarType → Bool
  | .enum _ => true
  | _ => false

/-- The types that are printed as strings, as a JSON number may not hold them. -/
def isLong : ScalarType → Bool
  | .int64 | .uint64 | .sint64 | .fixed64 | .sfixed64 => true
  | _ => false

/-- The integers of a type. -/
def holdsInt (type : ScalarType) (value : ℤ) : Bool :=
  match type with
  | .int32 | .sint32 | .sfixed32 => -2 ^ 31 ≤ value && value < 2 ^ 31
  | .int64 | .sint64 | .sfixed64 => -2 ^ 63 ≤ value && value < 2 ^ 63
  | .uint32 | .fixed32 => 0 ≤ value && value < 2 ^ 32
  | .uint64 | .fixed64 => 0 ≤ value && value < 2 ^ 64
  | .enum values => value ∈ values.map Prod.snd
  | _ => false

/-- The scalars that a field of the type can hold. -/
def holds (type : ScalarType) : Scalar → Bool
  | .bool _ => type = .bool
  | .int value => type.holdsInt value
  | .float _ => type = .double || type = .float
  | .string _ => type = .string
  | .bytes _ => type = .bytes

/-- What a field without a value reads as, unless its descriptor has a default. -/
def zero : ScalarType → Scalar
  | .double | .float => .float (.finite 0)
  | .bool => .bool false
  | .string => .string ""
  | .bytes => .bytes ""
  | .enum values => .int ((values.head?.map Prod.snd).getD 0)
  | _ => .int 0

end ScalarType

/-! ### Descriptors -/

/-- How often a field occurs. -/
inductive Label where
  | singular
  | repeated
  | map (key : ScalarType)
  deriving DecidableEq, Repr

/-- What one occurrence of a field is: a scalar, with the explicit default of its descriptor, or a message of the
    type of this name. -/
inductive Kind where
  | scalar (type : ScalarType) (default : Option Scalar)
  | message (type : String)
  deriving DecidableEq, Repr

/-- A field of a message, with the name that JSON knows it under. -/
structure Field where
  name : String
  jsonName : String
  label : Label
  kind : Kind
  deriving DecidableEq, Repr

/-- The fields of the message types, by the name of the type. -/
abbrev Schema := String → List Field

def fieldNamed (fields : List Field) (name : String) : Option Field :=
  fields.find? fun field => field.name = name

/-- A name starts with a letter or an underscore. -/
def isIdentifier (name : String) : Bool :=
  match name.toList with
  | first :: _ => first.isAlpha || first = '_'
  | [] => false

/-- The values of an enum have names. -/
def Kind.Named (kind : Kind) : Prop :=
  ∀ values default, kind = .scalar (.enum values) default → ∀ member ∈ values, isIdentifier member.1 = true

/-- What the compiler of descriptors checks: JSON names are not used twice and hold no null character, the values of
    an enum have names, and only a singular scalar has an explicit default, which is of its type. -/
structure Schema.WellFormed (schema : Schema) : Prop where
  jsonNames : ∀ type, ((schema type).map Field.jsonName).Nodup
  printable : ∀ type, ∀ field ∈ schema type, '\x00' ∉ field.jsonName.toList
  enums : ∀ type, ∀ field ∈ schema type, field.kind.Named
  defaults : ∀ type, ∀ field ∈ schema type, ∀ scalarType value,
    field.kind = .scalar scalarType (some value) → field.label = .singular ∧ scalarType.holds value = true

/-! ### Messages -/

/-- A value of a field; a message is its set fields by name, and what is repeated or mapped is not empty. -/
inductive Value where
  | scalar (value : Scalar)
  | message (fields : List (String × Value))
  | repeated (items : List Value)
  | map (entries : List (Scalar × Value))
  deriving Repr

mutual

/-- The value is one of a field with this label and kind. -/
def Value.fits (schema : Schema) : Label → Kind → Value → Bool
  | .singular, .scalar type _, .scalar value => type.holds value
  | .singular, .message type, .message fields =>
      decide (fields.map Prod.fst).Nodup && fieldsFit schema (schema type) fields
  | .repeated, kind, .repeated items => items.length ≠ 0 && itemsFit schema kind items
  | .map key, kind, .map entries =>
      entries.length ≠ 0 && decide (entries.map Prod.fst).Nodup && entriesFit schema key kind entries
  | _, _, _ => false

def fieldsFit (schema : Schema) (fields : List Field) : List (String × Value) → Bool
  | [] => true
  | (name, value) :: rest =>
      (match fieldNamed fields name with
        | some field => value.fits schema field.label field.kind
        | none => false) && fieldsFit schema fields rest

def itemsFit (schema : Schema) (kind : Kind) : List Value → Bool
  | [] => true
  | item :: rest => item.fits schema .singular kind && itemsFit schema kind rest

def entriesFit (schema : Schema) (key : ScalarType) (kind : Kind) : List (Scalar × Value) → Bool
  | [] => true
  | (entryKey, value) :: rest =>
      key.holds entryKey && value.fits schema .singular kind && entriesFit schema key kind rest

end

/-! ### Reading along a path -/

/-- One step into a value: to a member, to an item by position, or to an entry by key. -/
inductive Step where
  | member (name : String)
  | index (position : ℤ)
  | key (key : Scalar)
  deriving DecidableEq, Repr

abbrev Path := List Step

inductive PathError where
  | attributeError
  | indexError
  | typeError
  | valueError
  deriving DecidableEq, Repr

/-- What a path has come to. -/
inductive Place where
  | scalar (type : ScalarType) (default : Option Scalar) (value : Option Scalar)
  | message (type : String) (fields : List (String × Value))
  | repeated (kind : Kind) (items : List Value)
  | map (key : ScalarType) (kind : Kind) (entries : List (Scalar × Value))

namespace Place

/-- One occurrence; an unset message reads as one without set fields. -/
def ofKind : Kind → Option Value → Place
  | .scalar type default, some (.scalar value) => .scalar type default (some value)
  | .scalar type default, _ => .scalar type default none
  | .message type, some (.message fields) => .message type fields
  | .message type, _ => .message type []

def ofField (field : Field) (value : Option Value) : Place :=
  match field.label, value with
  | .singular, value => ofKind field.kind value
  | .repeated, some (.repeated items) => .repeated field.kind items
  | .repeated, _ => .repeated field.kind []
  | .map key, some (.map entries) => .map key field.kind entries
  | .map key, _ => .map key field.kind []

def step (schema : Schema) : Place → Step → Except PathError Place
  | .message type fields, .member name =>
      match fieldNamed (schema type) name with
      | some field => .ok (ofField field (fields.lookup name))
      | none => .error .attributeError
  | .repeated kind items, .index position =>
      match atIndex items position with
      | some item => .ok (ofKind kind (some item))
      | none => .error .indexError
  | .map keyType kind entries, .key key =>
      if keyType.holds key then .ok (ofKind kind (entries.lookup key)) else .error .typeError
  | .scalar _ _ _, .member _ => .error .attributeError
  | .repeated _ _, .member _ => .error .attributeError
  | .map _ _ _, .member _ => .error .attributeError
  | _, _ => .error .typeError

/-- The place that a path leads to; a step that fails ends the walk. -/
def walk (schema : Schema) (place : Place) : Path → Except PathError Place
  | [] => .ok place
  | first :: rest =>
      match place.step schema first with
      | .ok next => next.walk schema rest
      | .error failure => .error failure

end Place

def readScalar (type : ScalarType) (default value : Option Scalar) : Scalar :=
  value.getD (default.getD type.zero)

/-! ### What a path can come to, whatever the message -/

/-- The type of a place, as far as the schema tells it. -/
inductive Shape where
  | scalar (type : ScalarType) (default : Option Scalar)
  | message (type : String)
  | repeated (kind : Kind)
  | map (key : ScalarType) (kind : Kind)
  deriving DecidableEq, Repr

namespace Shape

def ofKind : Kind → Shape
  | .scalar type default => .scalar type default
  | .message type => .message type

def ofField (field : Field) : Shape :=
  match field.label with
  | .singular => ofKind field.kind
  | .repeated => .repeated field.kind
  | .map key => .map key field.kind

def step (schema : Schema) : Shape → Step → Option Shape
  | .message type, .member name => (fieldNamed (schema type) name).map ofField
  | .repeated kind, .index _ => some (ofKind kind)
  | .map keyType kind, .key key => if keyType.holds key then some (ofKind kind) else none
  | _, _ => none

/-- The shape at the end of a path, from the schema alone. -/
def walk (schema : Schema) (shape : Shape) : Path → Option Shape
  | [] => some shape
  | first :: rest => (shape.step schema first).bind fun next => next.walk schema rest

end Shape

/-- The type of the place. -/
def Place.shape : Place → Shape
  | .scalar type default _ => .scalar type default
  | .message type _ => .message type
  | .repeated kind _ => .repeated kind
  | .map key kind _ => .map key kind

/-! ### Questions about a message -/

/-- How Python orders two scalars; strings are ordered by code points. -/
def pythonOrder : Scalar → Scalar → Option Ordering
  | .bool first, .bool second => some (orderOf first.toNat second.toNat)
  | .int first, .int second => some (orderOf first second)
  | .float first, .float second => first.order second
  | .string first, .string second => some (orderOf first second)
  | .bytes first, .bytes second => some (orderOf first second)
  | _, _ => none

/-- What a query asks of one message: a comparison with a constant, a negation, or whether a field is set. -/
inductive Query where
  | compare (path : Path) (operator : Operator) (constant : Scalar)
  | negate (path : Path)
  | hasField (path : Path) (name : String)
  deriving DecidableEq, Repr

namespace Query

def path : Query → Path
  | .compare path _ _ => path
  | .negate path => path
  | .hasField path _ => path

/-- The answer of a comparison, of a negation or of `HasField` at the end of the path. -/
def answer (schema : Schema) : Query → Place → Except PathError Bool
  | .compare _ operator constant, .scalar type default value =>
      .ok (operator.holds (pythonOrder (readScalar type default value) constant))
  | .negate _, .scalar type default value =>
      match readScalar type default value with
      | .bool value => .ok !value
      | _ => .error .typeError
  | .hasField _ name, .message type fields =>
      match fieldNamed (schema type) name with
      | some field => if field.label = .singular then .ok (fields.lookup name).isSome else .error .valueError
      | none => .error .valueError
  | _, _ => .error .typeError

/-- The expression on the message itself. -/
def evaluate (schema : Schema) (type : String) (message : List (String × Value)) (query : Query) :
    Except PathError Bool := do
  let place ← (Place.message type message).walk schema query.path
  query.answer schema place

end Query

/-! ### `MessageToDict` -/

/-- The shortest decimal that reads back as the same number of single precision. -/
abbrev ShortestFloat := ℚ → ℚ

def scalarJson (toShortestFloat : ShortestFloat) (type : ScalarType) : Scalar → Json
  | .bool value => .boolean value
  | .int value =>
      match type with
      | .enum values => ((values.find? fun member => member.2 = value).map fun member => Json.string member.1).getD .null
      | type => if type.isLong then .string value.repr else .number value
  | .float (.finite value) => .number (if type = .float then toShortestFloat value else value)
  | .float .nan => .string "NaN"
  | .float (.infinity negative) => .string (if negative then "-Infinity" else "Infinity")
  | .string text => .string text
  | .bytes base64 => .string base64

/-- A key of a map is written as a string. -/
def keyJson : Scalar → String
  | .string text => text
  | .int value => value.repr
  | .bool value => if value then "true" else "false"
  | _ => ""

mutual

/-- The JSON form of a value; a scalar's depends on its type alone. -/
def Value.toJson (toShortestFloat : ShortestFloat) (schema : Schema) : Kind → Value → Json
  | .scalar type _, .scalar value => scalarJson toShortestFloat type value
  | .message type, .message fields => .object (fieldsJson toShortestFloat schema (schema type) fields)
  | kind, .repeated items => .array (itemsJson toShortestFloat schema kind items)
  | kind, .map entries => .object (entriesJson toShortestFloat schema kind entries)
  | _, _ => .null

def fieldsJson (toShortestFloat : ShortestFloat) (schema : Schema) (fields : List Field) :
    List (String × Value) → JsonObject
  | [] => []
  | (name, value) :: rest =>
      match fieldNamed fields name with
      | some field =>
          (field.jsonName, value.toJson toShortestFloat schema field.kind) ::
            fieldsJson toShortestFloat schema fields rest
      | none => fieldsJson toShortestFloat schema fields rest

def itemsJson (toShortestFloat : ShortestFloat) (schema : Schema) (kind : Kind) : List Value → List Json
  | [] => []
  | item :: rest => item.toJson toShortestFloat schema kind :: itemsJson toShortestFloat schema kind rest

def entriesJson (toShortestFloat : ShortestFloat) (schema : Schema) (kind : Kind) :
    List (Scalar × Value) → JsonObject
  | [] => []
  | (key, value) :: rest =>
      (keyJson key, value.toJson toShortestFloat schema kind) :: entriesJson toShortestFloat schema kind rest

end

/-- The document of a message. -/
def messageToDict (toShortestFloat : ShortestFloat) (schema : Schema) (type : String)
    (message : List (String × Value)) : JsonObject :=
  fieldsJson toShortestFloat schema (schema type) message

/-! ### Fields by their names -/

/-- A field that is found by its name is one of the message. -/
theorem mem_of_fieldNamed {fields : List Field} {name : String} {field : Field}
    (found : fieldNamed fields name = some field) : field ∈ fields :=
  List.mem_of_find?_eq_some found

theorem name_of_fieldNamed {fields : List Field} {name : String} {field : Field}
    (found : fieldNamed fields name = some field) : field.name = name := by
  have named := List.find?_some found
  simpa using named

/-- A field is found by its JSON name. -/
theorem find_jsonName {fields : List Field} (distinct : (fields.map Field.jsonName).Nodup) {field : Field}
    (member : field ∈ fields) : (fields.find? fun other => other.jsonName = field.jsonName) = some field := by
  cases found : fields.find? fun other => other.jsonName = field.jsonName with
  | none =>
      have missing := List.find?_eq_none.mp found field member
      simp at missing
  | some other =>
      have same : other.jsonName = field.jsonName := by simpa using List.find?_some found
      rw [List.inj_on_of_nodup_map distinct (List.mem_of_find?_eq_some found) member same]

/-! ### Messages that fit -/

theorem fits_of_lookup {schema : Schema} {fields : List Field} {message : List (String × Value)}
    (fits : fieldsFit schema fields message = true) {name : String} {field : Field}
    (named : fieldNamed fields name = some field) {value : Value} (found : message.lookup name = some value) :
    value.fits schema field.label field.kind = true := by
  induction message with
  | nil => cases found
  | cons first rest inductionHypothesis =>
      obtain ⟨key, firstValue⟩ := first
      rw [fieldsFit, Bool.and_eq_true] at fits
      by_cases same : name = key
      · rw [same, List.lookup_cons_self, Option.some.injEq] at found
        rw [← same, named] at fits
        exact found ▸ fits.1
      · rw [List.lookup_cons, beq_eq_false_iff_ne.mpr same] at found
        exact inductionHypothesis fits.2 found

theorem fits_of_mem_items {schema : Schema} {kind : Kind} {items : List Value}
    (fits : itemsFit schema kind items = true) {item : Value} (member : item ∈ items) :
    item.fits schema .singular kind = true := by
  induction items with
  | nil => cases member
  | cons first rest inductionHypothesis =>
      rw [itemsFit, Bool.and_eq_true] at fits
      cases member with
      | head => exact fits.1
      | tail _ later => exact inductionHypothesis fits.2 later

theorem fits_of_lookup_entries {schema : Schema} {keyType : ScalarType} {kind : Kind}
    {entries : List (Scalar × Value)} (fits : entriesFit schema keyType kind entries = true) {key : Scalar}
    {value : Value} (found : entries.lookup key = some value) : value.fits schema .singular kind = true := by
  induction entries with
  | nil => cases found
  | cons first rest inductionHypothesis =>
      obtain ⟨entryKey, firstValue⟩ := first
      rw [entriesFit, Bool.and_eq_true, Bool.and_eq_true] at fits
      by_cases same : key = entryKey
      · rw [same, List.lookup_cons_self, Option.some.injEq] at found
        exact found ▸ fits.1.2
      · rw [List.lookup_cons, beq_eq_false_iff_ne.mpr same] at found
        exact inductionHypothesis fits.2 found

/-! ### Documents of messages -/

/-- The document of a field is under its JSON name. -/
theorem lookup_fieldsJson (toShortestFloat : ShortestFloat) {schema : Schema} {fields : List Field}
    (distinct : (fields.map Field.jsonName).Nodup) {message : List (String × Value)}
    (fits : fieldsFit schema fields message = true) {name : String} {field : Field}
    (named : fieldNamed fields name = some field) :
    (fieldsJson toShortestFloat schema fields message).lookup field.jsonName =
      (message.lookup name).map (Value.toJson toShortestFloat schema field.kind) := by
  induction message with
  | nil => rfl
  | cons first rest inductionHypothesis =>
      obtain ⟨key, value⟩ := first
      rw [fieldsFit, Bool.and_eq_true] at fits
      cases firstNamed : fieldNamed fields key with
      | none =>
          rw [firstNamed] at fits
          cases fits.1
      | some firstField =>
          rw [fieldsJson, firstNamed]
          by_cases same : name = key
          · rw [← same, named, Option.some.injEq] at firstNamed
            rw [← firstNamed, List.lookup_cons_self, same, List.lookup_cons_self]
            rfl
          · have apart : field.jsonName ≠ firstField.jsonName := by
              intro sameJson
              have sameField := List.inj_on_of_nodup_map distinct (mem_of_fieldNamed named)
                (mem_of_fieldNamed firstNamed) sameJson
              exact same ((name_of_fieldNamed named).symm.trans (sameField ▸ name_of_fieldNamed firstNamed))
            rw [List.lookup_cons, beq_eq_false_iff_ne.mpr apart, List.lookup_cons, beq_eq_false_iff_ne.mpr same]
            exact inductionHypothesis fits.2

theorem itemsJson_eq_map (toShortestFloat : ShortestFloat) (schema : Schema) (kind : Kind) (items : List Value) :
    itemsJson toShortestFloat schema kind items = items.map (Value.toJson toShortestFloat schema kind) := by
  induction items with
  | nil => rfl
  | cons first rest inductionHypothesis => rw [itemsJson, inductionHypothesis, List.map_cons]

/-- The document of a value is under its key, as the keys are strings. -/
theorem lookup_entriesJson (toShortestFloat : ShortestFloat) {schema : Schema} {kind : Kind}
    {entries : List (Scalar × Value)} (fits : entriesFit schema .string kind entries = true) (key : String) :
    (entriesJson toShortestFloat schema kind entries).lookup key =
      (entries.lookup (.string key)).map (Value.toJson toShortestFloat schema kind) := by
  induction entries with
  | nil => rfl
  | cons first rest inductionHypothesis =>
      obtain ⟨entryKey, value⟩ := first
      rw [entriesFit, Bool.and_eq_true, Bool.and_eq_true] at fits
      cases entryKey with
      | string text =>
          rw [entriesJson]
          by_cases same : key = text
          · rw [same, keyJson, List.lookup_cons_self, List.lookup_cons_self]
            rfl
          · have apart : Scalar.string key ≠ .string text := fun equal => same (Scalar.string.inj equal)
            rw [keyJson, List.lookup_cons, beq_eq_false_iff_ne.mpr same, List.lookup_cons,
              beq_eq_false_iff_ne.mpr apart]
            exact inductionHypothesis fits.2
      | bool value => cases fits.1.1
      | int value => cases fits.1.1
      | float value => cases fits.1.1
      | bytes base64 => cases fits.1.1

namespace Place

/-- What the place holds is of its type, and a default is only that of a singular field. -/
def Fits (schema : Schema) : Place → Prop
  | .scalar type default value =>
      (∀ held, value = some held → type.holds held = true) ∧
        (∀ explicit, default = some explicit → type.holds explicit = true) ∧ (Kind.scalar type default).Named
  | .message type fields => fieldsFit schema (schema type) fields = true
  | .repeated kind items =>
      itemsFit schema kind items = true ∧ (∀ type explicit, kind ≠ .scalar type (some explicit)) ∧ kind.Named
  | .map key kind entries =>
      entriesFit schema key kind entries = true ∧ (∀ type explicit, kind ≠ .scalar type (some explicit)) ∧ kind.Named

/-- The document under a place; nothing stands for no fields, no items and no entries. -/
def Reads (toShortestFloat : ShortestFloat) (schema : Schema) (content : Option Json) : Place → Prop
  | .scalar type _ value => content = value.map (scalarJson toShortestFloat type)
  | .message type fields =>
      content.getD (.object []) = .object (fieldsJson toShortestFloat schema (schema type) fields)
  | .repeated kind items => content.getD (.array []) = .array (itemsJson toShortestFloat schema kind items)
  | .map _ kind entries => content.getD (.object []) = .object (entriesJson toShortestFloat schema kind entries)

theorem fits_ofKind {schema : Schema} {kind : Kind} {value : Option Value}
    (fits : ∀ held, value = some held → held.fits schema .singular kind = true)
    (defaults : ∀ type explicit, kind = .scalar type (some explicit) → type.holds explicit = true)
    (named : kind.Named) : (ofKind kind value).Fits schema := by
  cases kind with
  | scalar type default =>
      have typed : ∀ explicit, default = some explicit → type.holds explicit = true := by
        intro explicit same
        exact defaults type explicit (same ▸ rfl)
      cases value with
      | none => exact ⟨(fun _ held => nomatch held), typed, named⟩
      | some held =>
          have fit := fits held rfl
          cases held with
          | scalar inner =>
              refine ⟨?_, typed, named⟩
              intro other same
              cases same
              simpa [Value.fits] using fit
          | message _ => simp [Value.fits] at fit
          | repeated _ => simp [Value.fits] at fit
          | map _ => simp [Value.fits] at fit
  | message type =>
      cases value with
      | none => rfl
      | some held =>
          have fit := fits held rfl
          cases held with
          | message fields =>
              rw [Value.fits, Bool.and_eq_true] at fit
              exact fit.2
          | scalar _ => simp [Value.fits] at fit
          | repeated _ => simp [Value.fits] at fit
          | map _ => simp [Value.fits] at fit

theorem reads_ofKind (toShortestFloat : ShortestFloat) {schema : Schema} {kind : Kind} {value : Option Value}
    (fits : ∀ held, value = some held → held.fits schema .singular kind = true) :
    (ofKind kind value).Reads toShortestFloat schema (value.map (Value.toJson toShortestFloat schema kind)) := by
  cases kind with
  | scalar type default =>
      cases value with
      | none => rfl
      | some held =>
          have fit := fits held rfl
          cases held with
          | scalar inner =>
              change some (Value.toJson toShortestFloat schema (.scalar type default) (.scalar inner)) =
                some (scalarJson toShortestFloat type inner)
              rw [Value.toJson]
          | message _ => simp [Value.fits] at fit
          | repeated _ => simp [Value.fits] at fit
          | map _ => simp [Value.fits] at fit
  | message type =>
      cases value with
      | none => rfl
      | some held =>
          have fit := fits held rfl
          cases held with
          | message fields =>
              change Value.toJson toShortestFloat schema (.message type) (.message fields) =
                .object (fieldsJson toShortestFloat schema (schema type) fields)
              rw [Value.toJson]
          | scalar _ => simp [Value.fits] at fit
          | repeated _ => simp [Value.fits] at fit
          | map _ => simp [Value.fits] at fit

theorem fits_ofField {schema : Schema} (wellFormed : schema.WellFormed) {type : String} {field : Field}
    (member : field ∈ schema type) {value : Option Value}
    (fits : ∀ held, value = some held → held.fits schema field.label field.kind = true) :
    (ofField field value).Fits schema := by
  have defaults := wellFormed.defaults type field member
  have named := wellFormed.enums type field member
  unfold ofField
  cases label : field.label with
  | singular =>
      rw [label] at fits
      exact fits_ofKind fits (fun scalarType explicit kind => (defaults scalarType explicit kind).2) named
  | repeated =>
      rw [label] at fits
      have plain : ∀ scalarType explicit, field.kind ≠ .scalar scalarType (some explicit) := by
        intro scalarType explicit kind
        cases label.symm.trans (defaults scalarType explicit kind).1
      cases value with
      | none => exact ⟨rfl, plain, named⟩
      | some held =>
          have fit := fits held rfl
          cases held with
          | repeated items =>
              rw [Value.fits, Bool.and_eq_true] at fit
              exact ⟨fit.2, plain, named⟩
          | scalar _ => simp [Value.fits] at fit
          | message _ => simp [Value.fits] at fit
          | map _ => simp [Value.fits] at fit
  | map key =>
      rw [label] at fits
      have plain : ∀ scalarType explicit, field.kind ≠ .scalar scalarType (some explicit) := by
        intro scalarType explicit kind
        cases label.symm.trans (defaults scalarType explicit kind).1
      cases value with
      | none => exact ⟨rfl, plain, named⟩
      | some held =>
          have fit := fits held rfl
          cases held with
          | map entries =>
              rw [Value.fits, Bool.and_eq_true, Bool.and_eq_true] at fit
              exact ⟨fit.2, plain, named⟩
          | scalar _ => simp [Value.fits] at fit
          | message _ => simp [Value.fits] at fit
          | repeated _ => simp [Value.fits] at fit

theorem reads_ofField (toShortestFloat : ShortestFloat) {schema : Schema} {field : Field} {value : Option Value}
    (fits : ∀ held, value = some held → held.fits schema field.label field.kind = true) :
    (ofField field value).Reads toShortestFloat schema
      (value.map (Value.toJson toShortestFloat schema field.kind)) := by
  unfold ofField
  cases label : field.label with
  | singular =>
      rw [label] at fits
      exact reads_ofKind toShortestFloat fits
  | repeated =>
      rw [label] at fits
      cases value with
      | none => rfl
      | some held =>
          have fit := fits held rfl
          cases held with
          | repeated items =>
              change Value.toJson toShortestFloat schema field.kind (.repeated items) = _
              rw [Value.toJson]
          | scalar _ => simp [Value.fits] at fit
          | message _ => simp [Value.fits] at fit
          | map _ => simp [Value.fits] at fit
  | map key =>
      rw [label] at fits
      cases value with
      | none => rfl
      | some held =>
          have fit := fits held rfl
          cases held with
          | map entries =>
              change Value.toJson toShortestFloat schema field.kind (.map entries) = _
              rw [Value.toJson]
          | scalar _ => simp [Value.fits] at fit
          | message _ => simp [Value.fits] at fit
          | repeated _ => simp [Value.fits] at fit

/-! ### Steps -/

/-- The steps that go on: an attribute of a message, a position of a list, a key of a map. -/
theorem step_cases {schema : Schema} {place next : Place} {first : Step}
    (stepped : place.step schema first = .ok next) :
    (∃ type fields name field, place = .message type fields ∧ first = .member name ∧
      fieldNamed (schema type) name = some field ∧ next = ofField field (fields.lookup name)) ∨
    (∃ kind items position item, place = .repeated kind items ∧ first = .index position ∧
      atIndex items position = some item ∧ next = ofKind kind (some item)) ∨
    ∃ keyType kind entries key, place = .map keyType kind entries ∧ first = .key key ∧
      keyType.holds key = true ∧ next = ofKind kind (entries.lookup key) := by
  cases place with
  | scalar type default value => cases first <;> cases stepped
  | message type fields =>
      cases first with
      | member name =>
          cases named : fieldNamed (schema type) name with
          | none => simp [step, named] at stepped
          | some field =>
              rw [step, named, Except.ok.injEq] at stepped
              exact .inl ⟨type, fields, name, field, rfl, rfl, named, stepped.symm⟩
      | index position => cases stepped
      | key key => cases stepped
  | repeated kind items =>
      cases first with
      | member name => cases stepped
      | index position =>
          cases reached : atIndex items position with
          | none => simp [step, reached] at stepped
          | some item =>
              rw [step, reached, Except.ok.injEq] at stepped
              exact .inr (.inl ⟨kind, items, position, item, rfl, rfl, reached, stepped.symm⟩)
      | key key => cases stepped
  | map keyType kind entries =>
      cases first with
      | member name => cases stepped
      | index position => cases stepped
      | key key =>
          rw [step] at stepped
          by_cases typed : keyType.holds key = true
          · rw [if_pos typed, Except.ok.injEq] at stepped
            exact .inr (.inr ⟨keyType, kind, entries, key, rfl, rfl, typed, stepped.symm⟩)
          · rw [if_neg typed] at stepped
            cases stepped

/-- A step from a place that fits the schema leads to one that does. -/
theorem fits_step {schema : Schema} (wellFormed : schema.WellFormed) {place next : Place} {first : Step}
    (fits : place.Fits schema) (stepped : place.step schema first = .ok next) : next.Fits schema := by
  rcases step_cases stepped with ⟨type, fields, name, field, rfl, rfl, named, rfl⟩ |
    ⟨kind, items, position, item, rfl, rfl, reached, rfl⟩ | ⟨keyType, kind, entries, key, rfl, rfl, typed, rfl⟩
  · exact fits_ofField wellFormed (mem_of_fieldNamed named) fun held found => fits_of_lookup fits named found
  · refine fits_ofKind ?_ (fun type explicit plain => absurd plain (fits.2.1 type explicit)) fits.2.2
    intro held same
    cases same
    exact fits_of_mem_items fits.1 (mem_of_atIndex reached)
  · exact fits_ofKind (fun held found => fits_of_lookup_entries fits.1 found)
      (fun type explicit plain => absurd plain (fits.2.1 type explicit)) fits.2.2

theorem fits_walk {schema : Schema} (wellFormed : schema.WellFormed) {place reached : Place} {path : Path}
    (fits : place.Fits schema) (walked : place.walk schema path = .ok reached) : reached.Fits schema := by
  induction path generalizing place with
  | nil =>
      cases walked
      exact fits
  | cons first rest inductionHypothesis =>
      rw [walk] at walked
      cases stepped : place.step schema first with
      | error failure =>
          rw [stepped] at walked
          cases walked
      | ok next =>
          rw [stepped] at walked
          exact inductionHypothesis (fits_step wellFormed fits stepped) walked

theorem shape_step {schema : Schema} {place next : Place} {first : Step}
    (stepped : place.step schema first = .ok next) : place.shape.step schema first = some next.shape := by
  have ofKind_shape : ∀ kind value, (ofKind kind value).shape = Shape.ofKind kind := by
    intro kind value
    cases kind with
    | scalar type default =>
        cases value with
        | none => rfl
        | some held => cases held <;> rfl
    | message type =>
        cases value with
        | none => rfl
        | some held => cases held <;> rfl
  rcases step_cases stepped with ⟨type, fields, name, field, rfl, rfl, named, rfl⟩ |
    ⟨kind, items, position, item, rfl, rfl, reached, rfl⟩ | ⟨keyType, kind, entries, key, rfl, rfl, typed, rfl⟩
  · change (fieldNamed (schema type) name).map Shape.ofField = _
    rw [named, Option.map_some]
    unfold ofField Shape.ofField
    cases field.label with
    | singular => rw [ofKind_shape]
    | repeated =>
        cases fields.lookup name with
        | none => rfl
        | some held => cases held <;> rfl
    | map key =>
        cases fields.lookup name with
        | none => rfl
        | some held => cases held <;> rfl
  · rw [ofKind_shape]
    rfl
  · rw [ofKind_shape]
    change (if keyType.holds key = true then some (Shape.ofKind kind) else none) = _
    rw [if_pos typed]

theorem shape_walk {schema : Schema} {place reached : Place} {path : Path}
    (walked : place.walk schema path = .ok reached) : place.shape.walk schema path = some reached.shape := by
  induction path generalizing place with
  | nil =>
      cases walked
      rfl
  | cons first rest inductionHypothesis =>
      rw [walk] at walked
      cases stepped : place.step schema first with
      | error failure =>
          rw [stepped] at walked
          cases walked
      | ok next =>
          rw [stepped] at walked
          rw [Shape.walk, shape_step stepped, Option.bind_some]
          exact inductionHypothesis walked

end Place

end Protobuf
