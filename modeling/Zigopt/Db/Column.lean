/-
Module: Zigopt.Db.Column
Layer: Db
Purpose: The SQL expressions that a protobuf column builds from attributes, positions and keys, and from the
  comparisons, the negation and the `HasField` at their end.
Main exports: ScalarDescriptor, Descriptor, BuildError, getJsonKey, Expression, OwnAttributes, Expression.getattr,
  Expression.getitem, Expression.asPrimitive, Expression.follow, clauseOf
-/
import Zigopt.Lib.Protobuf
import Zigopt.Lib.Sql

namespace Zigopt.Db

open Comparison Protobuf Sql

/-! ### Descriptors -/

inductive PythonType where
  | str
  | bool
  | float
  | int
  deriving DecidableEq, Repr

/-- A Python type, `OurEnumDescriptor` or `DescriptorWithDefault`. -/
inductive ScalarDescriptor where
  | python (type : PythonType)
  | enum (values : List (String × ℤ)) (default : Scalar)
  | withDefault (type : ScalarDescriptor) (default : Scalar)
  deriving DecidableEq, Repr

/-- What an expression is typed with; of the fields only the repeated ones and the maps are kept as they are. -/
inductive Descriptor where
  | message (type : String)
  | entry (key : ScalarType) (value : Kind)
  | field (label : Label) (kind : Kind)
  | scalar (descriptor : ScalarDescriptor)
  deriving DecidableEq, Repr

/-- Why no clause of the column is built. -/
inductive BuildError where
  | attributeError
  | keyError
  | typeError
  | valueError
  | argumentError
  | assertionError
  | notImplementedError
  | ownAttribute
  | plainJsonb
  deriving DecidableEq, Repr

/-- The table of Python types of `next_descriptor_for_field_descriptor`. -/
def pythonType : ScalarType → Option PythonType
  | .bool => some .bool
  | .double | .float => some .float
  | .string => some .str
  | .bytes | .enum _ => none
  | _ => some .int

def nextScalarDescriptor (type : ScalarType) (default : Option Scalar) : Except BuildError ScalarDescriptor :=
  match type with
  | .enum values => .ok (.enum values (readScalar (.enum values) default none))
  | type =>
      match pythonType type with
      | some python => .ok (.python python)
      | none => .error .notImplementedError

def nextDescriptorForFieldDescriptor : Kind → Except BuildError Descriptor
  | .message type => .ok (.message type)
  | .scalar type default => (nextScalarDescriptor type default).map .scalar

def fieldDescriptorToScalarDescriptor : Kind → Except BuildError Descriptor
  | .message _ => .error .notImplementedError
  | .scalar type default => do
      let descriptor ← nextScalarDescriptor type default
      match default with
      | some value => .ok (.scalar (.withDefault descriptor value))
      | none => .ok (.scalar descriptor)

/-- An integer reads a repeated field, a map as well: of a map it finds the message of an entry. -/
def getJsonKeyFromFieldDescriptor : Label → Kind → JsonIndex → Except BuildError Descriptor
  | .singular, _, .position _ => .error .keyError
  | .repeated, .message type, .position _ => .ok (.message type)
  | .repeated, kind, .position _ => fieldDescriptorToScalarDescriptor kind
  | .map key, kind, .position _ => .ok (.entry key kind)
  | .map _, kind, _ => nextDescriptorForFieldDescriptor kind
  | .repeated, _, _ => .error .keyError
  | .singular, _, _ => .error .typeError

/-- The two fields of an entry of a map. -/
def entryFields (key : ScalarType) (value : Kind) : List Field :=
  [⟨"key", "key", .singular, .scalar key none⟩, ⟨"value", "value", .singular, value⟩]

def fieldsOf (schema : Schema) : Descriptor → List Field
  | .message type => schema type
  | .entry key value => entryFields key value
  | _ => []

def getJsonKeyOfField (field : Field) : Except BuildError Descriptor :=
  match field.label, field.kind with
  | .singular, .message type => .ok (.message type)
  | .singular, kind => fieldDescriptorToScalarDescriptor kind
  | label, kind => .ok (.field label kind)

/-- `get_json_key`, with the JSON names. -/
def getJsonKey (schema : Schema) (descriptor : Descriptor) (index : JsonIndex) : Except BuildError Descriptor :=
  match descriptor, index with
  | .field label kind, index => getJsonKeyFromFieldDescriptor label kind index
  | .scalar _, _ => .error .assertionError
  | descriptor, .name key =>
      match (fieldsOf schema descriptor).find? fun field => field.jsonName = key with
      | some field => getJsonKeyOfField field
      | none => .error .keyError
  | _, _ => .error .keyError

/-! ### Expressions -/

/-- The column, or an item of another expression. -/
inductive Expression where
  | column (type : String)
  | item (parent : Expression) (index : JsonIndex) (descriptor : Descriptor)
  deriving DecidableEq, Repr

/-- The attributes that a column and an item have as expressions of SQL: `__getattr__` is not asked for these. -/
structure OwnAttributes where
  column : String → Bool
  item : String → Bool

/-- `json.dumps` of the default of a descriptor that is not a scalar. -/
def defaultJson : Descriptor → Json
  | .field .repeated _ => .array []
  | _ => .object []

def literal : Scalar → SqlValue
  | .bool value => .boolean value
  | .int value => .integer value
  | .float value => .numeric value
  | .string text => .text text
  | .bytes base64 => .text base64

def getCastFromPythonType : PythonType → SqlType
  | .str => .text
  | .bool => .boolean
  | .float => .numeric
  | .int => .bigint

/-- An enum is cast to an integer; with a default it is no known type. -/
def getCastFromDescriptor : ScalarDescriptor → Except BuildError SqlType
  | .python type => .ok (getCastFromPythonType type)
  | .enum _ _ => .ok .bigint
  | .withDefault (.python type) _ => .ok (getCastFromPythonType type)
  | .withDefault _ _ => .error .notImplementedError

def pythonDefault : PythonType → Scalar
  | .str => .string ""
  | .bool => .bool false
  | .float => .float (.finite 0)
  | .int => .int 0

/-- `_default_value_for_descriptor` of a scalar. -/
def defaultValueForDescriptor : ScalarDescriptor → Except BuildError Scalar
  | .python type => .ok (pythonDefault type)
  | .enum _ default => .ok default
  | .withDefault (.python _) default => .ok default
  | .withDefault _ _ => .error .assertionError

namespace Expression

def descriptor : Expression → Descriptor
  | .column type => .message type
  | .item _ _ descriptor => descriptor

def isColumn : Expression → Bool
  | .column _ => true
  | .item _ _ _ => false

/-- The expression itself, without defaults for what is missing on the way. -/
def clause : Expression → Clause
  | .column _ => .column
  | .item parent index _ => .getItem parent.clause index

/-- `coalesce(expr, default)`. -/
def withDefault (expression : Expression) : Clause :=
  .coalesce expression.clause (.constant (.jsonb (defaultJson expression.descriptor)))

def astext : Expression → Except BuildError Clause
  | .column _ => .error .attributeError
  | .item parent index _ => .ok (.getText parent.withDefault index)

/-- `as_primitive`: the text of the item, cast to the type of its descriptor, with the default for an absent field. -/
def asPrimitive (expression : Expression) (hasDefault : Bool) : Except BuildError Clause :=
  match expression.descriptor with
  | .scalar descriptor => do
      let castType ← getCastFromDescriptor descriptor
      let text ← expression.astext
      if hasDefault then do
        let default ← defaultValueForDescriptor descriptor
        .ok (.coalesce (.cast text castType) (.constant (literal default)))
      else .ok (.cast text castType)
  | _ => .error .assertionError

def realGetitem (schema : Schema) (expression : Expression) (index : JsonIndex) : Except BuildError Expression :=
  match expression.descriptor with
  | .scalar _ => .error .keyError
  | descriptor => (getJsonKey schema descriptor index).map fun next => .item expression index next

/-- An attribute is a field by its name; the document has it by its JSON name. -/
def getValueFromDescriptor (schema : Schema) (expression : Expression) (name : String) :
    Except BuildError Expression :=
  match fieldNamed (fieldsOf schema expression.descriptor) name with
  | some field => expression.realGetitem schema (.name field.jsonName)
  | none => .error .attributeError

def owns (own : OwnAttributes) (expression : Expression) (name : String) : Bool :=
  if expression.isColumn then own.column name else own.item name

/-- An attribute of the expression class hides a field of the same name. -/
def getattr (own : OwnAttributes) (schema : Schema) (expression : Expression) (name : String) :
    Except BuildError Expression :=
  if expression.owns own name then .error .ownAttribute else expression.getValueFromDescriptor schema name

/-- What is neither an integer nor the key of a map falls back to plain JSON. -/
def getitem (schema : Schema) (expression : Expression) (index : JsonIndex) : Except BuildError Expression :=
  match expression.descriptor, index with
  | _, .position _ => expression.realGetitem schema index
  | .field (.map _) _, _ => expression.realGetitem schema index
  | _, _ => .error .plainJsonb

/-- `HasField` reads the field without its default. -/
def hasField (schema : Schema) (expression : Expression) (name : String) : Except BuildError Clause := do
  let field ← expression.getValueFromDescriptor schema name
  match field.descriptor with
  | .scalar _ => (field.asPrimitive false).map .isNotNull
  | _ => .ok (.isNotNull field.clause)

/-- A comparison with a boolean other than `==` and `!=` is refused, one of something that is not a scalar too. -/
def compare (expression : Expression) (operator : Operator) (constant : Scalar) : Except BuildError Clause :=
  match expression.descriptor with
  | .scalar _ => do
      let clause ← expression.asPrimitive true
      match constant with
      | .bool _ =>
          if operator.isOrder then .error .argumentError
          else .ok (.compare operator clause (.constant (literal constant)))
      | _ => .ok (.compare operator clause (.constant (literal constant)))
  | _ => .error .valueError

def invert (expression : Expression) : Except BuildError Clause :=
  match expression.descriptor with
  | .scalar _ => (expression.asPrimitive true).map .not
  | _ => .error .valueError

def read (own : OwnAttributes) (schema : Schema) (expression : Expression) : Step → Except BuildError Expression
  | .member name => expression.getattr own schema name
  | .index position => expression.getitem schema (.position position)
  | .key (.string text) => expression.getitem schema (.name text)
  | .key (.int value) => expression.getitem schema (.position value)
  | .key (.bool value) => expression.getitem schema (.boolean value)
  | .key _ => .error .typeError

/-- The expression at the end of a path, read step by step. -/
def follow (own : OwnAttributes) (schema : Schema) (expression : Expression) : Path → Except BuildError Expression
  | [] => .ok expression
  | first :: rest =>
      match expression.read own schema first with
      | .ok next => next.follow own schema rest
      | .error failure => .error failure

end Expression

/-- The clause of a question about the column. -/
def clauseOf (own : OwnAttributes) (schema : Schema) (type : String) (query : Query) : Except BuildError Clause := do
  let expression ← (Expression.column type).follow own schema query.path
  match query with
  | .compare _ operator constant => expression.compare operator constant
  | .negate _ => expression.invert
  | .hasField _ name => expression.hasField schema name

end Zigopt.Db
