/-
Module: Zigopt.Db.DescriptorJson
Layer: Db
Purpose: How the value of a protobuf column, or of an item of it, is turned into JSON to be bound and how it is read
  from the JSON of a row, by the descriptor of its path; and for which values the second undoes the first.
Main exports: PyValue, Conversions, JsonFormat, emitJsonWithDescriptor, parseJsonWithDescriptor, Reached, Equals,
  isRestored, parse_emit_iff
-/
import Zigopt.Db.Column
import Zigopt.Lib.Raising

namespace Zigopt.Db

open Comparison Protobuf Sql

/-! ### Values of Python -/

/-- The type of a message: by its name, or that of the entries of a map. -/
inductive MessageType where
  | named (type : String)
  | entry (key : ScalarType) (value : Kind)
  deriving DecidableEq, Repr

def MessageType.descriptor : MessageType → Descriptor
  | .named type => .message type
  | .entry key value => .entry key value

/-- A `ListValue` is a sequence as well as a message. -/
inductive SequenceClass where
  | list
  | tuple
  | listValue
  deriving DecidableEq, Repr

/-- A `Struct` is a mapping as well as a message. -/
inductive MappingClass where
  | dict
  | struct
  deriving DecidableEq, Repr

/-- The Python values on either side of the conversion, with the classes of their containers. -/
inductive PyValue where
  | null
  | scalar (value : Scalar)
  | message (type : MessageType) (fields : List (String × Value))
  | sequence (kind : SequenceClass) (items : List PyValue)
  | mapping (kind : MappingClass) (entries : List (Scalar × PyValue))

def structType : MessageType := .named "google.protobuf.Struct"

namespace PyValue

def messageType : PyValue → Option MessageType
  | .message type _ => some type
  | .sequence .listValue _ => some (.named "google.protobuf.ListValue")
  | .mapping .struct _ => some structType
  | _ => none

def isProtobuf (value : PyValue) : Bool :=
  value.messageType.isSome

def isMapping : PyValue → Bool
  | .mapping _ _ => true
  | _ => false

/-- `bool(value)`. -/
def truth : PyValue → Bool
  | .null => false
  | .scalar (.bool value) => value
  | .scalar (.int value) => value ≠ 0
  | .scalar (.float value) => value ≠ .finite 0
  | .scalar (.string text) => text ≠ ""
  | .scalar (.bytes base64) => base64 ≠ ""
  | .message _ _ => true
  | .sequence _ items => !items.isEmpty
  | .mapping _ entries => !entries.isEmpty

end PyValue

/-- The number that a scalar is compared as. -/
def numberOf : Scalar → Option FloatValue
  | .bool value => some (.finite (if value then 1 else 0))
  | .int value => some (.finite value)
  | .float value => some value
  | _ => none

/-- `==` of two scalars: booleans, integers and floats are compared as numbers. -/
def scalarEquals (first second : Scalar) : Bool :=
  match numberOf first, numberOf second with
  | some first, some second => first.order second = some .eq
  | none, none => first = second
  | _, _ => false

/-- `==`. Messages of different types differ, a list is no tuple and a dictionary no `Struct`. The entries of two
    dictionaries are compared in their order, which none of the functions here changes. -/
inductive Equals : PyValue → PyValue → Prop
  | null : Equals .null .null
  | scalar {first second : Scalar} (same : scalarEquals first second = true) : Equals (.scalar first) (.scalar second)
  | message (type : MessageType) (fields : List (String × Value)) : Equals (.message type fields) (.message type fields)
  | sequence {kind : SequenceClass} {first second : List PyValue} (items : List.Forall₂ Equals first second) :
      Equals (.sequence kind first) (.sequence kind second)
  | mapping {kind : MappingClass} {first second : List (Scalar × PyValue)}
      (keys : first.map Prod.fst = second.map Prod.fst)
      (values : List.Forall₂ Equals (first.map Prod.snd) (second.map Prod.snd)) :
      Equals (.mapping kind first) (.mapping kind second)

/-! ### Python's constructors and the protobuf library -/

inductive Raised where
  | valueError
  | typeError
  | assertionError
  | overflowError
  | attributeError
  | notImplementedError
  deriving DecidableEq, Repr

/-- The parts of `str`, `int` and `float` that read and write numbers as text and round to doubles. -/
structure Conversions where
  textOf : PyValue → String
  readInt : Scalar → Option ℤ
  readFloat : Scalar → Option FloatValue
  toDouble : ℤ → Option ℚ

/-- A Python type applied to a value. -/
def construct (conversions : Conversions) : PythonType → PyValue → Except Raised Scalar
  | .str, .scalar (.string text) => .ok (.string text)
  | .str, value => .ok (.string (conversions.textOf value))
  | .bool, value => .ok (.bool value.truth)
  | .int, .scalar (.bool value) => .ok (.int (if value then 1 else 0))
  | .int, .scalar (.int value) => .ok (.int value)
  | .int, .scalar (.float (.finite value)) => .ok (.int (value.num.tdiv value.den))
  | .int, .scalar (.float .nan) => .error .valueError
  | .int, .scalar (.float (.infinity _)) => .error .overflowError
  | .int, .scalar text =>
      match conversions.readInt text with
      | some value => .ok (.int value)
      | none => .error .valueError
  | .float, .scalar (.bool value) => .ok (.float (.finite (if value then 1 else 0)))
  | .float, .scalar (.int value) =>
      match conversions.toDouble value with
      | some double => .ok (.float (.finite double))
      | none => .error .overflowError
  | .float, .scalar (.float value) => .ok (.float value)
  | .float, .scalar text =>
      match conversions.readFloat text with
      | some value => .ok (.float value)
      | none => .error .valueError
  | _, _ => .error .typeError

/-- `MessageToDict`, and `ParseDict` for the class of a type with or without `ignore_unknown_fields`; none where they
    raise. -/
structure JsonFormat where
  messageToDict : PyValue → Option PyValue
  parseDict : MessageType → Bool → PyValue → Option PyValue

/-- The message types whose JSON is not an object. -/
def typesWithoutObjects : List String :=
  ["ListValue", "Timestamp", "Duration", "FieldMask", "DoubleValue", "FloatValue", "Int64Value", "UInt64Value",
    "Int32Value", "UInt32Value", "BoolValue", "StringValue", "BytesValue"].map fun name => "google.protobuf." ++ name

/-- The message is written as an object; a `Value` is when it holds a `Struct`. -/
def writesObject : PyValue → Bool
  | .message (.named type) fields =>
      if type = "google.protobuf.Value" then (fields.lookup "struct_value").isSome
      else type ∉ typesWithoutObjects
  | .message (.entry _ _) _ => true
  | .mapping .struct _ => true
  | _ => false

/-- What the protobuf library promises: the two are inverse on whole messages, an object is written for all messages
    but those of some types, what is parsed is a message of the type, and a `Struct` is parsed from a dictionary. -/
structure JsonFormat.Documented (format : JsonFormat) : Prop where
  inverse : ∀ message type json ignoreUnknownFields, message.messageType = some type →
    format.messageToDict message = some json → format.parseDict type ignoreUnknownFields json = some message
  objects : ∀ message json, format.messageToDict message = some json → json.isMapping = writesObject message
  parsesType : ∀ type ignoreUnknownFields json message,
    format.parseDict type ignoreUnknownFields json = some message → message.messageType = some type
  structFromDict : ∀ ignoreUnknownFields entries,
    format.parseDict structType ignoreUnknownFields (.mapping .struct entries) = none

/-! ### Descriptors applied to values -/

/-- `descriptor(value)`; a descriptor with a default takes no value. -/
def callDescriptor (conversions : Conversions) : ScalarDescriptor → PyValue → Except Raised Scalar
  | .python type, value => construct conversions type value
  | .enum values _, .scalar (.string name) =>
      match values.lookup name with
      | some number => .ok (.int number)
      | none => .error .valueError
  | .enum _ _, _ => .error .assertionError
  | .withDefault _ _, _ => .error .typeError

/-- `descriptor.serialize(value)`. A number is looked up in a dictionary, so that the value has a hash. -/
def serialize (conversions : Conversions) : ScalarDescriptor → PyValue → Except Raised PyValue
  | .enum values _, .scalar value =>
      match values.find? fun member => scalarEquals (.int member.2) value with
      | some member => .ok (.scalar (.string member.1))
      | none => .error .valueError
  | .enum _ _, .null | .enum _ _, .sequence .tuple _ => .error .valueError
  | .enum _ _, _ => .error .typeError
  | .withDefault type _, value => (callDescriptor conversions type value).map .scalar
  | .python _, _ => .error .notImplementedError

def isValidScalarDescriptorForValue (conversions : Conversions) (value : PyValue) (descriptor : ScalarDescriptor) :
    Except Raised Bool :=
  match callDescriptor conversions descriptor value, value with
  | .ok result, .scalar value => .ok (scalarEquals result value)
  | .ok _, _ => .ok false
  | .error .typeError, _ | .error .valueError, _ => .ok false
  | .error raised, _ => .error raised

def nextDescriptor (kind : Kind) : Except Raised Descriptor :=
  match nextDescriptorForFieldDescriptor kind with
  | .ok descriptor => .ok descriptor
  | .error _ => .error .notImplementedError

section Walks

variable (conversions : Conversions) (format : JsonFormat) (schema : Schema)

/-- `_validate_class`: the fields of the type have different JSON names. -/
def validateClass (type : MessageType) : Except Raised Unit :=
  if ((fieldsOf schema type.descriptor).map Field.jsonName).Nodup then .ok () else .error .valueError

def protobufToDict (value : PyValue) : Except Raised PyValue :=
  match value.messageType with
  | some type => do
      validateClass schema type
      match format.messageToDict value with
      | some json => .ok json
      | none => .error .valueError
  | none => .error .attributeError

def dictToProtobuf (type : MessageType) (ignoreUnknownFields : Bool) (value : PyValue) : Except Raised PyValue := do
  validateClass schema type
  match format.parseDict type ignoreUnknownFields value with
  | some message => .ok message
  | none => .error .valueError

/-! ### From values to JSON -/

def emitMessage (type : MessageType) (value : PyValue) : Except Raised PyValue :=
  if type = structType then
    if value.isMapping then .ok value else .error .valueError
  else if value.isProtobuf then protobufToDict format schema value
  else .error .valueError

def emitScalar (descriptor : ScalarDescriptor) (value : PyValue) : Except Raised PyValue :=
  match descriptor with
  | .python type => do
      let valid ← isValidScalarDescriptorForValue conversions value (.python type)
      if valid then .ok value else .error .valueError
  | descriptor => serialize conversions descriptor value

/-- A field that is not repeated; no path comes to one. -/
def emitField (kind : Kind) (value : PyValue) : Except Raised PyValue :=
  match kind with
  | .message _ => if value.isProtobuf then protobufToDict format schema value else .error .valueError
  | .scalar type default => do
      match ← nextDescriptor (.scalar type default) with
      | .scalar descriptor =>
          let valid ← isValidScalarDescriptorForValue conversions value descriptor
          if valid then .ok value else .error .valueError
      | _ => .error .valueError

mutual

/-- `emit_json_with_descriptor`: a container becomes a plain list or dict, its items follow the descriptor. -/
def emitJsonWithDescriptor : PyValue → Descriptor → Except Raised PyValue
  | .sequence _ items, .field .repeated kind => do
      let next ← nextDescriptor kind
      let emitted ← emitItems items next
      .ok (.sequence .list emitted)
  | .mapping _ entries, .field (.map _) kind => do
      let next ← nextDescriptor kind
      let emitted ← emitEntries entries next
      .ok (.mapping .dict emitted)
  | .sequence _ _, .field _ _ => .error .valueError
  | _, .field .repeated _ => .error .valueError
  | _, .field (.map _) _ => .error .valueError
  | value, .field .singular kind => emitField conversions format schema kind value
  | value, .message type => emitMessage format schema (.named type) value
  | value, .entry key kind => emitMessage format schema (.entry key kind) value
  | value, .scalar descriptor => emitScalar conversions descriptor value

def emitItems : List PyValue → Descriptor → Except Raised (List PyValue)
  | [], _ => .ok []
  | item :: rest, next => do
      let first ← emitJsonWithDescriptor item next
      let later ← emitItems rest next
      .ok (first :: later)

def emitEntries : List (Scalar × PyValue) → Descriptor → Except Raised (List (Scalar × PyValue))
  | [], _ => .ok []
  | (key, value) :: rest, next => do
      let first ← emitJsonWithDescriptor value next
      let later ← emitEntries rest next
      .ok ((key, first) :: later)

end

/-! ### From JSON to values -/

def parseMessage (ignoreUnknownFields : Bool) (type : MessageType) (value : PyValue) : Except Raised PyValue :=
  if value.isMapping then dictToProtobuf format schema type ignoreUnknownFields value else .error .valueError

def parseScalar (descriptor : ScalarDescriptor) (value : PyValue) : Except Raised PyValue :=
  match descriptor with
  | .enum values default => (callDescriptor conversions (.enum values default) value).map .scalar
  | descriptor => do
      let valid ← isValidScalarDescriptorForValue conversions value descriptor
      if valid then .ok value else .error .valueError

def parseField (ignoreUnknownFields : Bool) (kind : Kind) (value : PyValue) : Except Raised PyValue :=
  match kind with
  | .message type => parseMessage format schema ignoreUnknownFields (.named type) value
  | .scalar type default => do
      match ← nextDescriptor (.scalar type default) with
      | .scalar descriptor =>
          let valid ← isValidScalarDescriptorForValue conversions value descriptor
          if valid then .ok value else .error .valueError
      | _ => .error .valueError

mutual

/-- `parse_json_with_descriptor`, where an unknown member is an error unless it is to be ignored. -/
def parseJsonWithDescriptor (ignoreUnknownFields : Bool) : PyValue → Descriptor → Except Raised PyValue
  | .sequence _ items, .field .repeated kind => do
      let next ← nextDescriptor kind
      let parsed ← parseItems ignoreUnknownFields items next
      .ok (.sequence .list parsed)
  | .mapping _ entries, .field (.map _) kind => do
      let next ← nextDescriptor kind
      let parsed ← parseEntries ignoreUnknownFields entries next
      .ok (.mapping .dict parsed)
  | .sequence _ _, .field _ _ => .error .valueError
  | _, .field .repeated _ => .error .valueError
  | _, .field (.map _) _ => .error .valueError
  | value, .field .singular kind => parseField conversions format schema ignoreUnknownFields kind value
  | value, .message type => parseMessage format schema ignoreUnknownFields (.named type) value
  | value, .entry key kind => parseMessage format schema ignoreUnknownFields (.entry key kind) value
  | value, .scalar descriptor => parseScalar conversions descriptor value

def parseItems (ignoreUnknownFields : Bool) : List PyValue → Descriptor → Except Raised (List PyValue)
  | [], _ => .ok []
  | item :: rest, next => do
      let first ← parseJsonWithDescriptor ignoreUnknownFields item next
      let later ← parseItems ignoreUnknownFields rest next
      .ok (first :: later)

def parseEntries (ignoreUnknownFields : Bool) :
    List (Scalar × PyValue) → Descriptor → Except Raised (List (Scalar × PyValue))
  | [], _ => .ok []
  | (key, value) :: rest, next => do
      let first ← parseJsonWithDescriptor ignoreUnknownFields value next
      let later ← parseEntries ignoreUnknownFields rest next
      .ok ((key, first) :: later)

end

end Walks

/-! ### The descriptors of paths -/

/-- `get_json_key` with the names of the fields. -/
def getJsonKeyByName (schema : Schema) (descriptor : Descriptor) (index : JsonIndex) : Except BuildError Descriptor :=
  match descriptor, index with
  | .field label kind, index => getJsonKeyFromFieldDescriptor label kind index
  | .scalar _, _ => .error .assertionError
  | descriptor, .name key =>
      match fieldNamed (fieldsOf schema descriptor) key with
      | some field => getJsonKeyOfField field
      | none => .error .keyError
  | _, _ => .error .keyError

/-- What chains of `get_json_key` come to from the message type. -/
inductive Reached (schema : Schema) (type : String) : Descriptor → Prop
  | start : Reached schema type (.message type)
  | byJsonName {descriptor next : Descriptor} {index : JsonIndex} (reached : Reached schema type descriptor)
      (found : getJsonKey schema descriptor index = .ok next) : Reached schema type next
  | byName {descriptor next : Descriptor} {index : JsonIndex} (reached : Reached schema type descriptor)
      (found : getJsonKeyByName schema descriptor index = .ok next) : Reached schema type next

def enumNamesDistinct : Kind → Prop
  | .scalar (.enum values) _ => (values.map Prod.fst).Nodup
  | _ => True

/-- What the compiler of descriptors checks: the values of an enum have different names, and no enum is the key of a
    map. -/
structure EnumsDistinct (schema : Schema) : Prop where
  names : ∀ type, ∀ field ∈ schema type, enumNamesDistinct field.kind
  keys : ∀ type, ∀ field ∈ schema type, ∀ key, field.label = .map key → key.isEnum = false

/-! ### The values that come back -/

/-- A message of the type, with an object as its JSON, and no `Struct`. -/
def isOwnMessage (type : MessageType) (value : PyValue) : Bool :=
  value.messageType = some type && type ≠ structType && writesObject value

def isRestoredItem (kind : Kind) (value : PyValue) : Bool :=
  match kind with
  | .message type => isOwnMessage (.named type) value
  | .scalar _ _ => true

/-- There is no scalar with an explicit default, and the messages, lists and dictionaries are of the types that the
    descriptor has. -/
def isRestored : Descriptor → PyValue → Bool
  | .message type, value => isOwnMessage (.named type) value
  | .entry key kind, value => isOwnMessage (.entry key kind) value
  | .scalar (.withDefault _ _), _ => false
  | .scalar _, _ => true
  | .field .repeated kind, .sequence .list items => items.all (isRestoredItem kind)
  | .field (.map _) kind, .mapping .dict entries => entries.all fun entry => isRestoredItem kind entry.2
  | .field _ _, _ => false

/-- The parsed value is there and is equal to the first. -/
def ComesBack (parsed : Except Raised PyValue) (value : PyValue) : Prop :=
  ∃ result, parsed = .ok result ∧ Equals result value

/-! ### Equality -/

/-- What something is equal to is equal to itself: it is not NaN. -/
theorem scalarEquals_self {first second : Scalar} (same : scalarEquals first second = true) :
    scalarEquals second second = true := by
  unfold scalarEquals at same ⊢
  cases number : numberOf second with
  | none => simp
  | some value =>
      cases other : numberOf first with
      | none => simp [number, other] at same
      | some first =>
          simp only [number, other, decide_eq_true_eq] at same
          simpa [FloatValue.order_eq_iff] using (FloatValue.order_eq_iff.mp same).2

theorem messageType_of_equals {first second : PyValue} (same : Equals first second) :
    first.messageType = second.messageType := by
  cases same with
  | null => rfl
  | scalar same => rfl
  | message type fields => rfl
  | @sequence kind first second items => cases kind <;> rfl
  | @mapping kind first second keys values => cases kind <;> rfl

theorem equals_sequence {first second : SequenceClass} {firstItems secondItems : List PyValue} :
    Equals (.sequence first firstItems) (.sequence second secondItems) ↔
      first = second ∧ List.Forall₂ Equals firstItems secondItems := by
  constructor
  · intro same
    cases same with
    | sequence items => exact ⟨rfl, items⟩
  · intro ⟨sameClass, items⟩
    cases sameClass
    exact .sequence items

theorem equals_mapping {first second : MappingClass} {firstEntries secondEntries : List (Scalar × PyValue)} :
    Equals (.mapping first firstEntries) (.mapping second secondEntries) ↔
      first = second ∧ firstEntries.map Prod.fst = secondEntries.map Prod.fst ∧
        List.Forall₂ Equals (firstEntries.map Prod.snd) (secondEntries.map Prod.snd) := by
  constructor
  · intro same
    cases same with
    | mapping keys values => exact ⟨rfl, keys, values⟩
  · intro ⟨sameClass, keys, values⟩
    cases sameClass
    exact .mapping keys values

/-! ### Messages -/

section Inverse

variable {conversions : Conversions} {format : JsonFormat} {schema : Schema}

theorem protobufToDict_ok {value json : PyValue} (written : protobufToDict format schema value = .ok json) :
    ∃ own, value.messageType = some own ∧ validateClass schema own = .ok () ∧
      format.messageToDict value = some json := by
  unfold protobufToDict at written
  cases typed : value.messageType with
  | none => simp [typed] at written
  | some own =>
      simp only [typed] at written
      obtain ⟨⟨⟩, valid, written⟩ := Raising.bind_eq_ok.mp written
      cases document : format.messageToDict value with
      | none => simp [document] at written
      | some document =>
          simp only [document] at written
          cases written
          exact ⟨own, rfl, valid, rfl⟩

/-- A mapping for a `Struct`, and the document of any message for another type. -/
theorem emitMessage_ok {type : MessageType} {value json : PyValue}
    (emitted : emitMessage format schema type value = .ok json) :
    (type = structType ∧ value.isMapping = true ∧ json = value) ∨
      (type ≠ structType ∧ ∃ own, value.messageType = some own ∧ validateClass schema own = .ok () ∧
        format.messageToDict value = some json) := by
  unfold emitMessage at emitted
  split at emitted
  · rename_i isStruct
    split at emitted
    · rename_i isMapping
      cases emitted
      exact .inl ⟨isStruct, isMapping, rfl⟩
    · cases emitted
  · rename_i noStruct
    split at emitted
    · exact .inr ⟨noStruct, protobufToDict_ok emitted⟩
    · cases emitted

theorem parseMessage_ok {ignoreUnknownFields : Bool} {type : MessageType} {json result : PyValue}
    (parsed : parseMessage format schema ignoreUnknownFields type json = .ok result) :
    json.isMapping = true ∧ format.parseDict type ignoreUnknownFields json = some result := by
  unfold parseMessage dictToProtobuf at parsed
  split at parsed
  · rename_i isMapping
    obtain ⟨⟨⟩, _, parsed⟩ := Raising.bind_eq_ok.mp parsed
    cases read : format.parseDict type ignoreUnknownFields json with
    | none => simp [read] at parsed
    | some message =>
        simp only [read] at parsed
        cases parsed
        exact ⟨isMapping, rfl⟩
  · cases parsed

/-- A message that writes an object and is no `Struct` has its type and fields only. -/
theorem message_of_own {type : MessageType} {value : PyValue} (own : isOwnMessage type value = true) :
    ∃ fields, value = .message type fields := by
  unfold isOwnMessage at own
  simp only [Bool.and_eq_true, decide_eq_true_eq] at own
  obtain ⟨⟨typed, noStruct⟩, object⟩ := own
  cases value with
  | null => cases typed
  | scalar value => cases typed
  | message other fields =>
      cases typed
      exact ⟨fields, rfl⟩
  | sequence kind items => cases kind <;> cases object
  | mapping kind entries =>
      cases kind with
      | dict => cases typed
      | struct =>
          cases typed
          exact absurd rfl noStruct

/-- What is parsed for a message type is equal to the emitted value only if that was of this type too. -/
theorem messageType_of_comesBack (documented : format.Documented) {ignoreUnknownFields : Bool} {type : MessageType}
    {json value : PyValue} (comesBack : ComesBack (parseMessage format schema ignoreUnknownFields type json) value) :
    value.messageType = some type := by
  obtain ⟨result, parsed, same⟩ := comesBack
  rw [← messageType_of_equals same]
  exact documented.parsesType _ _ _ _ (parseMessage_ok parsed).2

theorem comesBack_message (documented : format.Documented) (ignoreUnknownFields : Bool) {type : MessageType}
    {value json : PyValue} (emitted : emitMessage format schema type value = .ok json) :
    ComesBack (parseMessage format schema ignoreUnknownFields type json) value ↔ isOwnMessage type value = true := by
  constructor
  · intro comesBack
    have typed := messageType_of_comesBack documented comesBack
    obtain ⟨result, parsed, same⟩ := comesBack
    obtain ⟨isMapping, read⟩ := parseMessage_ok parsed
    rcases emitMessage_ok emitted with ⟨rfl, valueIsMapping, rfl⟩ | ⟨noStruct, own, ownType, valid, document⟩
    · cases json with
      | mapping kind entries =>
          cases kind with
          | dict => cases typed
          | struct => rw [documented.structFromDict] at read; cases read
      | _ => cases valueIsMapping
    · rw [documented.objects _ _ document] at isMapping
      simp [isOwnMessage, typed, noStruct, isMapping]
  · intro own
    obtain ⟨fields, rfl⟩ := message_of_own own
    simp only [isOwnMessage, Bool.and_eq_true, decide_eq_true_eq] at own
    obtain ⟨⟨typed, noStruct⟩, object⟩ := own
    rcases emitMessage_ok emitted with ⟨isStruct, _, _⟩ | ⟨_, own, ownType, valid, document⟩
    · exact absurd isStruct noStruct
    · cases typed.symm.trans ownType
      have isMapping := (documented.objects _ _ document).trans object
      have read := documented.inverse _ _ _ ignoreUnknownFields typed document
      refine ⟨.message type fields, ?_, .message type fields⟩
      unfold parseMessage dictToProtobuf
      rw [if_pos isMapping, valid]
      simp [read, bind, Except.bind]

/-! ### Scalars -/

/-- A value that a descriptor is valid for is a scalar that is equal to itself. -/
theorem scalar_of_valid {value : PyValue} {descriptor : ScalarDescriptor}
    (valid : isValidScalarDescriptorForValue conversions value descriptor = .ok true) :
    ∃ scalar, value = .scalar scalar ∧ scalarEquals scalar scalar = true := by
  unfold isValidScalarDescriptorForValue at valid
  split at valid
  · rename_i result scalar called
    simp only [Except.ok.injEq] at valid
    exact ⟨scalar, rfl, scalarEquals_self valid⟩
  · cases valid
  · cases valid
  · cases valid
  · cases valid

theorem not_valid_of_default {value : PyValue} {type : ScalarDescriptor} {default : Scalar} :
    isValidScalarDescriptorForValue conversions value (.withDefault type default) = .ok false := by
  cases value <;> rfl

theorem comesBack_python {type : PythonType} {value json : PyValue}
    (emitted : emitScalar conversions (.python type) value = .ok json) :
    ComesBack (parseScalar conversions (.python type) json) value := by
  obtain ⟨isValid, valid, emitted⟩ := Raising.bind_eq_ok.mp emitted
  cases isValid with
  | false => cases emitted
  | true =>
      cases emitted
      obtain ⟨scalar, rfl, same⟩ := scalar_of_valid valid
      refine ⟨.scalar scalar, ?_, .scalar same⟩
      unfold parseScalar
      simp [valid, bind, Except.bind]

/-- The name of a number is read as the number again. -/
theorem comesBack_enum {values : List (String × ℤ)} {default : Scalar} (distinct : (values.map Prod.fst).Nodup)
    {value json : PyValue} (emitted : emitScalar conversions (.enum values default) value = .ok json) :
    ComesBack (parseScalar conversions (.enum values default) json) value := by
  cases value with
  | scalar value =>
      unfold emitScalar serialize at emitted
      cases found : values.find? fun member => scalarEquals (.int member.2) value with
      | none => simp [found] at emitted
      | some member =>
          simp only [found] at emitted
          cases emitted
          have same : scalarEquals (.int member.2) value = true := by simpa using List.find?_some found
          have named : values.lookup member.1 = some member.2 :=
            JsonObject.lookup_of_mem distinct (List.mem_of_find?_eq_some found)
          refine ⟨.scalar (.int member.2), ?_, .scalar same⟩
          unfold parseScalar callDescriptor
          simp [named, Except.map]
  | null => cases emitted
  | message type fields => cases emitted
  | sequence kind items => cases kind <;> cases emitted
  | mapping kind entries => cases emitted

theorem comesBack_scalar {descriptor : ScalarDescriptor}
    (distinct : ∀ values default, descriptor = .enum values default → (values.map Prod.fst).Nodup)
    {value json : PyValue} (emitted : emitScalar conversions descriptor value = .ok json) :
    ComesBack (parseScalar conversions descriptor json) value ↔ isRestored (.scalar descriptor) value = true := by
  cases descriptor with
  | python type => exact iff_of_true (comesBack_python emitted) rfl
  | enum values default => exact iff_of_true (comesBack_enum (distinct values default rfl) emitted) rfl
  | withDefault type default =>
      refine iff_of_false ?_ Bool.false_ne_true
      intro ⟨result, parsed, _⟩
      obtain ⟨isValid, valid, parsed⟩ := Raising.bind_eq_ok.mp parsed
      rw [not_valid_of_default] at valid
      cases valid
      cases parsed

/-! ### Elements -/

/-- The descriptor of an element is that of a message or of a scalar without its default. -/
theorem nextDescriptor_ok {kind : Kind} {next : Descriptor} (found : nextDescriptor kind = .ok next) :
    (∃ type, kind = .message type ∧ next = .message type) ∨
      ∃ type default descriptor, kind = .scalar type default ∧ next = .scalar descriptor ∧
        ((∃ python, descriptor = .python python) ∨
          ∃ values zero, type = .enum values ∧ descriptor = .enum values zero) := by
  cases kind with
  | message type =>
      cases found
      exact .inl ⟨type, rfl, rfl⟩
  | scalar type default =>
      unfold nextDescriptor nextDescriptorForFieldDescriptor nextScalarDescriptor at found
      cases type with
      | enum values =>
          cases found
          exact .inr ⟨_, _, _, rfl, rfl, .inr ⟨values, _, rfl, rfl⟩⟩
      | bytes => cases found
      | _ =>
          cases found
          exact .inr ⟨_, _, _, rfl, rfl, .inl ⟨_, rfl⟩⟩

theorem emit_message (type : String) (value : PyValue) :
    emitJsonWithDescriptor conversions format schema value (.message type) =
      emitMessage format schema (.named type) value := by
  cases value <;> simp [emitJsonWithDescriptor]

theorem emit_entry (key : ScalarType) (kind : Kind) (value : PyValue) :
    emitJsonWithDescriptor conversions format schema value (.entry key kind) =
      emitMessage format schema (.entry key kind) value := by
  cases value <;> simp [emitJsonWithDescriptor]

theorem emit_scalar (descriptor : ScalarDescriptor) (value : PyValue) :
    emitJsonWithDescriptor conversions format schema value (.scalar descriptor) =
      emitScalar conversions descriptor value := by
  cases value <;> simp [emitJsonWithDescriptor]

theorem parse_message (ignoreUnknownFields : Bool) (type : String) (value : PyValue) :
    parseJsonWithDescriptor conversions format schema ignoreUnknownFields value (.message type) =
      parseMessage format schema ignoreUnknownFields (.named type) value := by
  cases value <;> simp [parseJsonWithDescriptor]

theorem parse_entry (ignoreUnknownFields : Bool) (key : ScalarType) (kind : Kind) (value : PyValue) :
    parseJsonWithDescriptor conversions format schema ignoreUnknownFields value (.entry key kind) =
      parseMessage format schema ignoreUnknownFields (.entry key kind) value := by
  cases value <;> simp [parseJsonWithDescriptor]

theorem parse_scalar (ignoreUnknownFields : Bool) (descriptor : ScalarDescriptor) (value : PyValue) :
    parseJsonWithDescriptor conversions format schema ignoreUnknownFields value (.scalar descriptor) =
      parseScalar conversions descriptor value := by
  cases value <;> simp [parseJsonWithDescriptor]

/-- An element of a repeated field or of a map. -/
theorem comesBack_item (documented : format.Documented) (ignoreUnknownFields : Bool) {kind : Kind}
    (distinct : enumNamesDistinct kind) {next : Descriptor} (found : nextDescriptor kind = .ok next)
    {value json : PyValue} (emitted : emitJsonWithDescriptor conversions format schema value next = .ok json) :
    ComesBack (parseJsonWithDescriptor conversions format schema ignoreUnknownFields json next) value ↔
      isRestoredItem kind value = true := by
  rcases nextDescriptor_ok found with ⟨type, rfl, rfl⟩ | ⟨type, default, descriptor, rfl, rfl, shape⟩
  · rw [emit_message] at emitted
    rw [parse_message]
    exact comesBack_message documented ignoreUnknownFields emitted
  · rw [emit_scalar] at emitted
    rw [parse_scalar]
    rcases shape with ⟨python, rfl⟩ | ⟨values, zero, rfl, rfl⟩
    · exact iff_of_true (comesBack_python emitted) rfl
    · exact iff_of_true (comesBack_enum distinct emitted) rfl

/-! ### Repeated fields and maps -/

/-- All items come back if each does. -/
theorem comesBack_items {ignoreUnknownFields : Bool} {kind : Kind} {next : Descriptor}
    (each : ∀ {value json}, emitJsonWithDescriptor conversions format schema value next = .ok json →
      (ComesBack (parseJsonWithDescriptor conversions format schema ignoreUnknownFields json next) value ↔
        isRestoredItem kind value = true))
    {items emitted : List PyValue} (done : emitItems conversions format schema items next = .ok emitted) :
    (∃ results, parseItems conversions format schema ignoreUnknownFields emitted next = .ok results ∧
        List.Forall₂ Equals results items) ↔
      items.all (isRestoredItem kind) = true := by
  induction items generalizing emitted with
  | nil =>
      cases done
      exact iff_of_true ⟨[], rfl, .nil⟩ rfl
  | cons item rest inductionHypothesis =>
      obtain ⟨first, firstEmitted, done⟩ := Raising.bind_eq_ok.mp done
      obtain ⟨later, laterEmitted, done⟩ := Raising.bind_eq_ok.mp done
      cases done
      rw [List.all_cons, Bool.and_eq_true, ← each firstEmitted, ← inductionHypothesis laterEmitted]
      constructor
      · intro ⟨results, parsed, same⟩
        obtain ⟨firstResult, firstParsed, parsed⟩ := Raising.bind_eq_ok.mp parsed
        obtain ⟨laterResults, laterParsed, parsed⟩ := Raising.bind_eq_ok.mp parsed
        cases parsed
        cases same with
        | cons firstSame laterSame =>
            exact ⟨⟨firstResult, firstParsed, firstSame⟩, laterResults, laterParsed, laterSame⟩
      · intro ⟨⟨firstResult, firstParsed, firstSame⟩, laterResults, laterParsed, laterSame⟩
        refine ⟨firstResult :: laterResults, ?_, .cons firstSame laterSame⟩
        simp [parseItems, firstParsed, laterParsed, bind, Except.bind]

/-- The walk over the entries is the walk over their values, beside the keys. -/
theorem emitEntries_eq (entries : List (Scalar × PyValue)) (next : Descriptor) :
    emitEntries conversions format schema entries next =
      (emitItems conversions format schema (entries.map Prod.snd) next).map ((entries.map Prod.fst).zip) := by
  induction entries with
  | nil => rfl
  | cons entry rest inductionHypothesis =>
      obtain ⟨key, value⟩ := entry
      simp only [emitEntries, emitItems, List.map_cons, inductionHypothesis]
      cases emitJsonWithDescriptor conversions format schema value next with
      | error raised => rfl
      | ok first =>
          cases emitItems conversions format schema (rest.map Prod.snd) next with
          | error raised => rfl
          | ok later => rfl

theorem parseEntries_eq (ignoreUnknownFields : Bool) (entries : List (Scalar × PyValue)) (next : Descriptor) :
    parseEntries conversions format schema ignoreUnknownFields entries next =
      (parseItems conversions format schema ignoreUnknownFields (entries.map Prod.snd) next).map
        ((entries.map Prod.fst).zip) := by
  induction entries with
  | nil => rfl
  | cons entry rest inductionHypothesis =>
      obtain ⟨key, value⟩ := entry
      simp only [parseEntries, parseItems, List.map_cons, inductionHypothesis]
      cases parseJsonWithDescriptor conversions format schema ignoreUnknownFields value next with
      | error raised => rfl
      | ok first =>
          cases parseItems conversions format schema ignoreUnknownFields (rest.map Prod.snd) next with
          | error raised => rfl
          | ok later => rfl

theorem emitItems_eq_mapM (items : List PyValue) (next : Descriptor) :
    emitItems conversions format schema items next =
      items.mapM fun item => emitJsonWithDescriptor conversions format schema item next := by
  induction items with
  | nil => rfl
  | cons item rest inductionHypothesis =>
      rw [emitItems, inductionHypothesis, List.mapM_cons]
      rfl

theorem parseItems_eq_mapM (ignoreUnknownFields : Bool) (items : List PyValue) (next : Descriptor) :
    parseItems conversions format schema ignoreUnknownFields items next =
      items.mapM fun item => parseJsonWithDescriptor conversions format schema ignoreUnknownFields item next := by
  induction items with
  | nil => rfl
  | cons item rest inductionHypothesis =>
      rw [parseItems, inductionHypothesis, List.mapM_cons]
      rfl

/-- All values of a map come back if each does; the keys stay. -/
theorem comesBack_entries {ignoreUnknownFields : Bool} {kind : Kind} {next : Descriptor}
    (each : ∀ {value json}, emitJsonWithDescriptor conversions format schema value next = .ok json →
      (ComesBack (parseJsonWithDescriptor conversions format schema ignoreUnknownFields json next) value ↔
        isRestoredItem kind value = true))
    {entries emitted : List (Scalar × PyValue)}
    (done : emitEntries conversions format schema entries next = .ok emitted) :
    (∃ results, parseEntries conversions format schema ignoreUnknownFields emitted next = .ok results ∧
        results.map Prod.fst = entries.map Prod.fst ∧
        List.Forall₂ Equals (results.map Prod.snd) (entries.map Prod.snd)) ↔
      (entries.all fun entry => isRestoredItem kind entry.2) = true := by
  rw [emitEntries_eq] at done
  obtain ⟨items, itemsEmitted, rfl⟩ := Raising.map_eq_ok.mp done
  have emittedAll := itemsEmitted
  rw [emitItems_eq_mapM, Raising.mapM_eq_ok] at emittedAll
  have sameLength : entries.length = items.length := by simpa using emittedAll.length_eq
  have keys : ((entries.map Prod.fst).zip items).map Prod.fst = entries.map Prod.fst :=
    List.map_fst_zip (by simp [sameLength])
  have values : ((entries.map Prod.fst).zip items).map Prod.snd = items := List.map_snd_zip (by simp [sameLength])
  have all : (entries.all fun entry => isRestoredItem kind entry.2) = (entries.map Prod.snd).all (isRestoredItem kind) := by
    rw [List.all_map]
    rfl
  rw [parseEntries_eq, keys, values, all, ← comesBack_items each itemsEmitted]
  constructor
  · intro ⟨results, parsed, sameKeys, same⟩
    obtain ⟨itemResults, itemsParsed, rfl⟩ := Raising.map_eq_ok.mp parsed
    have parsedAll := itemsParsed
    rw [parseItems_eq_mapM, Raising.mapM_eq_ok] at parsedAll
    rw [List.map_snd_zip (by simp [sameLength, parsedAll.length_eq])] at same
    exact ⟨itemResults, itemsParsed, same⟩
  · intro ⟨itemResults, itemsParsed, same⟩
    have paired : itemResults.length = (entries.map Prod.fst).length := by simpa using same.length_eq
    refine ⟨(entries.map Prod.fst).zip itemResults, by rw [itemsParsed]; rfl, List.map_fst_zip paired.ge, ?_⟩
    rw [List.map_snd_zip paired.le]
    exact same

/-! ### Every path -/

/-- What every path keeps: no singular field is left as it is, and the values of an enum have different names. -/
def Sound : Descriptor → Prop
  | .message _ => True
  | .entry key kind => key.isEnum = false ∧ enumNamesDistinct kind
  | .field label kind => label ≠ .singular ∧ (∀ key, label = .map key → key.isEnum = false) ∧ enumNamesDistinct kind
  | .scalar (.enum values _) => (values.map Prod.fst).Nodup
  | .scalar _ => True

theorem sound_nextScalarDescriptor {type : ScalarType} {default : Option Scalar} {descriptor : ScalarDescriptor}
    (distinct : enumNamesDistinct (.scalar type default))
    (found : nextScalarDescriptor type default = .ok descriptor) : Sound (.scalar descriptor) := by
  unfold nextScalarDescriptor at found
  cases type with
  | enum values =>
      cases found
      exact distinct
  | bytes => cases found
  | _ =>
      cases found
      trivial

theorem sound_fieldDescriptorToScalarDescriptor {kind : Kind} {next : Descriptor} (distinct : enumNamesDistinct kind)
    (found : fieldDescriptorToScalarDescriptor kind = .ok next) : Sound next := by
  cases kind with
  | message type => cases found
  | scalar type default =>
      obtain ⟨descriptor, read, found⟩ := Raising.bind_eq_ok.mp found
      cases default with
      | some value =>
          cases found
          trivial
      | none =>
          cases found
          exact sound_nextScalarDescriptor distinct read

theorem sound_nextDescriptorForFieldDescriptor {kind : Kind} {next : Descriptor} (distinct : enumNamesDistinct kind)
    (found : nextDescriptorForFieldDescriptor kind = .ok next) : Sound next := by
  cases kind with
  | message type =>
      cases found
      trivial
  | scalar type default =>
      obtain ⟨descriptor, read, rfl⟩ := Raising.map_eq_ok.mp found
      exact sound_nextScalarDescriptor distinct read

theorem sound_getJsonKeyFromFieldDescriptor {label : Label} {kind : Kind} {index : JsonIndex} {next : Descriptor}
    (keys : ∀ key, label = .map key → key.isEnum = false) (distinct : enumNamesDistinct kind)
    (found : getJsonKeyFromFieldDescriptor label kind index = .ok next) : Sound next := by
  cases label with
  | singular => cases index <;> cases found
  | repeated =>
      cases index with
      | position position =>
          cases kind with
          | message type =>
              cases found
              trivial
          | scalar type default => exact sound_fieldDescriptorToScalarDescriptor distinct found
      | name key => simp [getJsonKeyFromFieldDescriptor] at found
      | boolean value => simp [getJsonKeyFromFieldDescriptor] at found
  | map key =>
      cases index with
      | position position =>
          cases found
          exact ⟨keys key rfl, distinct⟩
      | name name => exact sound_nextDescriptorForFieldDescriptor distinct found
      | boolean value => exact sound_nextDescriptorForFieldDescriptor distinct found

theorem sound_getJsonKeyOfField {field : Field} {next : Descriptor}
    (keys : ∀ key, field.label = .map key → key.isEnum = false) (distinct : enumNamesDistinct field.kind)
    (found : getJsonKeyOfField field = .ok next) : Sound next := by
  obtain ⟨name, jsonName, label, kind⟩ := field
  cases label with
  | singular =>
      cases kind with
      | message type =>
          cases found
          trivial
      | scalar type default => exact sound_fieldDescriptorToScalarDescriptor distinct found
  | repeated =>
      cases found
      exact ⟨Label.noConfusion, keys, distinct⟩
  | map key =>
      cases found
      exact ⟨Label.noConfusion, keys, distinct⟩

/-- The fields of a message, and the two of an entry. -/
theorem sound_of_mem_fieldsOf (enums : EnumsDistinct schema) {descriptor : Descriptor} (sound : Sound descriptor)
    {field : Field} (member : field ∈ fieldsOf schema descriptor) {next : Descriptor}
    (found : getJsonKeyOfField field = .ok next) : Sound next := by
  cases descriptor with
  | message type => exact sound_getJsonKeyOfField (enums.keys type field member) (enums.names type field member) found
  | entry key kind =>
      obtain ⟨noEnum, distinct⟩ := sound
      simp only [fieldsOf, entryFields, List.mem_cons, List.not_mem_nil, or_false] at member
      rcases member with rfl | rfl
      · refine sound_getJsonKeyOfField (fun key isMap => by cases isMap) ?_ found
        cases key with
        | enum values => cases noEnum
        | _ => trivial
      · exact sound_getJsonKeyOfField (fun key isMap => by cases isMap) distinct found
  | field label kind => cases member
  | scalar descriptor => cases member

theorem sound_getJsonKey (enums : EnumsDistinct schema) {descriptor next : Descriptor} (sound : Sound descriptor)
    {index : JsonIndex} (found : getJsonKey schema descriptor index = .ok next) : Sound next := by
  unfold getJsonKey at found
  split at found
  · exact sound_getJsonKeyFromFieldDescriptor sound.2.1 sound.2.2 found
  · cases found
  · split at found
    · rename_i field named
      exact sound_of_mem_fieldsOf enums sound (List.mem_of_find?_eq_some named) found
    · cases found
  · cases found

theorem sound_getJsonKeyByName (enums : EnumsDistinct schema) {descriptor next : Descriptor}
    (sound : Sound descriptor) {index : JsonIndex} (found : getJsonKeyByName schema descriptor index = .ok next) :
    Sound next := by
  unfold getJsonKeyByName at found
  split at found
  · exact sound_getJsonKeyFromFieldDescriptor sound.2.1 sound.2.2 found
  · cases found
  · split at found
    · rename_i field named
      exact sound_of_mem_fieldsOf enums sound (mem_of_fieldNamed named) found
    · cases found
  · cases found

theorem Reached.sound (enums : EnumsDistinct schema) {type : String} {descriptor : Descriptor}
    (reached : Reached schema type descriptor) : Sound descriptor := by
  induction reached with
  | start => trivial
  | byJsonName reached found inductionHypothesis => exact sound_getJsonKey enums inductionHypothesis found
  | byName reached found inductionHypothesis => exact sound_getJsonKeyByName enums inductionHypothesis found

/-- A list for a repeated field, and a dictionary for a map, come back as what they are. -/
theorem comesBack_repeated (documented : format.Documented) (ignoreUnknownFields : Bool) {kind : Kind}
    (distinct : enumNamesDistinct kind) {value json : PyValue}
    (emitted : emitJsonWithDescriptor conversions format schema value (.field .repeated kind) = .ok json) :
    ComesBack (parseJsonWithDescriptor conversions format schema ignoreUnknownFields json (.field .repeated kind))
        value ↔ isRestored (.field .repeated kind) value = true := by
  cases value with
  | sequence sequenceClass items =>
      obtain ⟨next, found, emitted⟩ := Raising.bind_eq_ok.mp emitted
      obtain ⟨emittedItems, itemsEmitted, emitted⟩ := Raising.bind_eq_ok.mp emitted
      cases emitted
      have each := comesBack_items (comesBack_item documented ignoreUnknownFields distinct found) itemsEmitted
      have whole : ComesBack (parseJsonWithDescriptor conversions format schema ignoreUnknownFields
            (.sequence .list emittedItems) (.field .repeated kind)) (.sequence sequenceClass items) ↔
          .list = sequenceClass ∧ items.all (isRestoredItem kind) = true := by
        constructor
        · intro ⟨result, parsed, same⟩
          obtain ⟨sameNext, foundAgain, parsed⟩ := Raising.bind_eq_ok.mp parsed
          cases found.symm.trans foundAgain
          obtain ⟨results, itemsParsed, parsed⟩ := Raising.bind_eq_ok.mp parsed
          cases parsed
          obtain ⟨sameClass, same⟩ := equals_sequence.mp same
          exact ⟨sameClass, each.mp ⟨results, itemsParsed, same⟩⟩
        · intro ⟨sameClass, all⟩
          obtain ⟨results, itemsParsed, same⟩ := each.mpr all
          refine ⟨.sequence .list results, ?_, equals_sequence.mpr ⟨sameClass, same⟩⟩
          simp [parseJsonWithDescriptor, found, itemsParsed]
      rw [whole]
      cases sequenceClass with
      | list => simp [isRestored]
      | tuple => simp [isRestored]
      | listValue => simp [isRestored]
  | null => simp [emitJsonWithDescriptor] at emitted
  | scalar value => simp [emitJsonWithDescriptor] at emitted
  | message type fields => simp [emitJsonWithDescriptor] at emitted
  | mapping mappingClass entries => simp [emitJsonWithDescriptor] at emitted

theorem comesBack_map (documented : format.Documented) (ignoreUnknownFields : Bool) {key : ScalarType} {kind : Kind}
    (distinct : enumNamesDistinct kind) {value json : PyValue}
    (emitted : emitJsonWithDescriptor conversions format schema value (.field (.map key) kind) = .ok json) :
    ComesBack (parseJsonWithDescriptor conversions format schema ignoreUnknownFields json (.field (.map key) kind))
        value ↔ isRestored (.field (.map key) kind) value = true := by
  cases value with
  | mapping mappingClass entries =>
      obtain ⟨next, found, emitted⟩ := Raising.bind_eq_ok.mp emitted
      obtain ⟨emittedEntries, entriesEmitted, emitted⟩ := Raising.bind_eq_ok.mp emitted
      cases emitted
      have each := comesBack_entries (comesBack_item documented ignoreUnknownFields distinct found) entriesEmitted
      have whole : ComesBack (parseJsonWithDescriptor conversions format schema ignoreUnknownFields
            (.mapping .dict emittedEntries) (.field (.map key) kind)) (.mapping mappingClass entries) ↔
          .dict = mappingClass ∧ (entries.all fun entry => isRestoredItem kind entry.2) = true := by
        constructor
        · intro ⟨result, parsed, same⟩
          obtain ⟨sameNext, foundAgain, parsed⟩ := Raising.bind_eq_ok.mp parsed
          cases found.symm.trans foundAgain
          obtain ⟨results, entriesParsed, parsed⟩ := Raising.bind_eq_ok.mp parsed
          cases parsed
          obtain ⟨sameClass, same⟩ := equals_mapping.mp same
          exact ⟨sameClass, each.mp ⟨results, entriesParsed, same⟩⟩
        · intro ⟨sameClass, all⟩
          obtain ⟨results, entriesParsed, same⟩ := each.mpr all
          refine ⟨.mapping .dict results, ?_, equals_mapping.mpr ⟨sameClass, same⟩⟩
          simp [parseJsonWithDescriptor, found, entriesParsed]
      rw [whole]
      cases mappingClass with
      | dict => simp [isRestored]
      | struct => simp [isRestored]
  | null => simp [emitJsonWithDescriptor] at emitted
  | scalar value => simp [emitJsonWithDescriptor] at emitted
  | message type fields => simp [emitJsonWithDescriptor] at emitted
  | sequence sequenceClass items => simp [emitJsonWithDescriptor] at emitted

end Inverse

/-- What is emitted for a value under the descriptor of a path is parsed to an equal value again exactly if the
    descriptor has no explicit default and the value's messages, lists and dictionaries are of its types. -/
theorem parse_emit_iff {format : JsonFormat} (documented : format.Documented) {schema : Schema}
    (enums : EnumsDistinct schema) (conversions : Conversions) (ignoreUnknownFields : Bool) {type : String}
    {descriptor : Descriptor} (reached : Reached schema type descriptor) {value json : PyValue}
    (emitted : emitJsonWithDescriptor conversions format schema value descriptor = .ok json) :
    ComesBack (parseJsonWithDescriptor conversions format schema ignoreUnknownFields json descriptor) value ↔
      isRestored descriptor value = true := by
  have sound := reached.sound enums
  cases descriptor with
  | message type =>
      rw [emit_message] at emitted
      rw [parse_message]
      exact comesBack_message documented ignoreUnknownFields emitted
  | entry key kind =>
      rw [emit_entry] at emitted
      rw [parse_entry]
      exact comesBack_message documented ignoreUnknownFields emitted
  | field label kind =>
      cases label with
      | singular => exact absurd rfl sound.1
      | repeated => exact comesBack_repeated documented ignoreUnknownFields sound.2.2 emitted
      | map key => exact comesBack_map documented ignoreUnknownFields sound.2.2 emitted
  | scalar descriptor =>
      rw [emit_scalar] at emitted
      rw [parse_scalar]
      refine comesBack_scalar ?_ emitted
      intro values default isEnum
      cases isEnum
      exact sound

/-! ### Columns of experiments -/

/-- Two fields of `ExperimentMeta`, and the message of the second. -/
def experimentTasks : Schema := fun type =>
  if type = "ExperimentMeta" then
    [⟨"num_solutions", "num_solutions", .singular, .scalar .int32 (some (.int 1))⟩,
      ⟨"tasks", "tsk", .repeated, .message "Task"⟩]
  else if type = "Task" then
    [⟨"name", "name", .singular, .scalar .string none⟩,
      ⟨"cost", "cost", .singular, .scalar .double (some (.float (.finite 1)))⟩]
  else []

theorem experimentTasks_enums : EnumsDistinct experimentTasks where
  names type field member := by
    unfold experimentTasks at member
    split at member
    · simp only [List.mem_cons, List.not_mem_nil, or_false] at member
      rcases member with rfl | rfl <;> trivial
    · split at member
      · simp only [List.mem_cons, List.not_mem_nil, or_false] at member
        rcases member with rfl | rfl <;> trivial
      · cases member
  keys type field member key isMap := by
    unfold experimentTasks at member
    split at member
    · simp only [List.mem_cons, List.not_mem_nil, or_false] at member
      rcases member with rfl | rfl <;> cases isMap
    · split at member
      · simp only [List.mem_cons, List.not_mem_nil, or_false] at member
        rcases member with rfl | rfl <;> cases isMap
      · cases member

def task (name : String) : PyValue :=
  .message (.named "Task") [("name", .scalar (.string name))]

def taskDict (name : String) : PyValue :=
  .mapping .dict [(.string "name", .scalar (.string name))]

/-- The library on tasks that have a name only. -/
def taskFormat : JsonFormat where
  messageToDict
    | .message (.named "Task") [("name", .scalar (.string name))] => some (taskDict name)
    | _ => none
  parseDict
    | .named "Task", _, .mapping .dict [(.string "name", .scalar (.string name))] => some (task name)
    | _, _, _ => none

theorem taskFormat_documented : taskFormat.Documented where
  inverse message type json ignoreUnknownFields typed written := by
    unfold taskFormat at written
    simp only at written
    split at written
    · cases written
      cases typed
      rfl
    · cases written
  objects message json written := by
    unfold taskFormat at written
    simp only at written
    split at written
    · cases written
      simp [taskDict, writesObject, typesWithoutObjects, PyValue.isMapping]
    · cases written
  parsesType type ignoreUnknownFields json message parsed := by
    unfold taskFormat at parsed
    simp only at parsed
    split at parsed
    · cases parsed
      rfl
    · cases parsed
  structFromDict ignoreUnknownFields entries := by
    rfl

/-- Python's own types, for small integers. -/
def smallConversions : Conversions where
  textOf _ := ""
  readInt _ := none
  readFloat _ := none
  toDouble value := some value

theorem reached_tasks : Reached experimentTasks "ExperimentMeta" (.field .repeated (.message "Task")) :=
  .byName .start (show getJsonKeyByName experimentTasks (.message "ExperimentMeta") (.name "tasks") = _ from rfl)

theorem reached_numSolutions :
    Reached experimentTasks "ExperimentMeta" (.scalar (.withDefault (.python .int) (.int 1))) :=
  .byName .start (show getJsonKeyByName experimentTasks (.message "ExperimentMeta") (.name "num_solutions") = _ from rfl)

/-- Tasks come back from the JSON of a repeated message. -/
theorem parse_emit_tasks :
    ComesBack (parseJsonWithDescriptor smallConversions taskFormat experimentTasks true
        (.sequence .list [taskDict "cheap", taskDict "exact"]) (.field .repeated (.message "Task")))
        (.sequence .list [task "cheap", task "exact"]) ↔
      isRestored (.field .repeated (.message "Task")) (.sequence .list [task "cheap", task "exact"]) = true :=
  parse_emit_iff taskFormat_documented experimentTasks_enums smallConversions true reached_tasks (by rfl)

/-- A number of solutions is emitted for the column and cannot be read from it, as its field has a default. -/
theorem numSolutions_not_read :
    ¬∀ (format : JsonFormat), format.Documented → ∀ schema : Schema, EnumsDistinct schema →
      ∀ (conversions : Conversions) (ignoreUnknownFields : Bool) (type : String) (descriptor : Descriptor),
        Reached schema type descriptor → ∀ value json : PyValue,
          emitJsonWithDescriptor conversions format schema value descriptor = .ok json →
            ComesBack (parseJsonWithDescriptor conversions format schema ignoreUnknownFields json descriptor) value := by
  intro always
  obtain ⟨result, parsed, _⟩ := always taskFormat taskFormat_documented experimentTasks experimentTasks_enums
    smallConversions true "ExperimentMeta" _ reached_numSolutions (.scalar (.int 3)) (.scalar (.int 3)) rfl
  cases parsed

end Zigopt.Db
