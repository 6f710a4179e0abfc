/-
Module: Zigopt.Handlers.ValidateDict
Layer: Handlers
Purpose: Reading the members of a request body with a validation type, and the errors a request is
  refused with.
Main exports: ValidationError, ValidationType, validateType, getOptWithValidation, getWithValidation
-/
import Zigopt.Lib.Json
import Zigopt.Lib.Raising

namespace Zigopt

/-- The errors of `libsigopt.aux.errors` that refuse a request. -/
inductive ValidationError where
  | missingJsonKey (key : String)
  | invalidType (expected : String) (key : Option String)
  | invalidKey (key : String) (msg : Option String)
  | invalidValue (msg : String)
  | missingParam (param : String) (msg : String)
  | sigoptValidation (msg : String)
  /-- A `ValueError`, which no handler expects. -/
  | valueError (msg : String)
deriving DecidableEq, Repr

/-- A validator: its name, and the transformed value of the instances it accepts. -/
structure ValidationType (α : Type) where
  name : String
  read : Json → Option α

namespace ValidationType

variable {α β : Type}

def object : ValidationType JsonObject where
  name := "object"
  read
    | .object members => some members
    | _ => none

def string : ValidationType String where
  name := "string"
  read
    | .string text => some text
    | _ => none

def boolean : ValidationType Bool where
  name := "boolean"
  read
    | .boolean value => some value
    | _ => none

/-- `is_number`; a JSON document has finite numbers only. -/
def number : ValidationType ℚ where
  name := "number"
  read
    | .number value => some value
    | _ => none

/-- `is_integer_valued_number`; the float that is read is equal to the int that `int` makes of it. -/
def integer : ValidationType ℚ where
  name := "integer"
  read
    | .number value => if value.den = 1 then some value else none
    | _ => none

/-- An array all of whose items are of the type. -/
def arrayOf (subvalidator : ValidationType α) : ValidationType (List α) where
  name := s!"array[{subvalidator.name}]"
  read
    | .array items => items.mapM subvalidator.read
    | _ => none

/-- The first of two validators that accepts. -/
def oneOf (first : ValidationType α) (second : ValidationType β) : ValidationType (α ⊕ β) where
  name := s!"oneOf[{first.name}, {second.name}]"
  read value :=
    match first.read value with
    | some result => some (.inl result)
    | none => (second.read value).map .inr

def objectOf (valueValidator : ValidationType α) : ValidationType (List (String × α)) where
  name := s!"object<string, {valueValidator.name}>"
  read
    | .object members =>
        (JsonObject.distinctKeys members).mapM fun member => (valueValidator.read member.2).map (member.1, ·)
    | _ => none

end ValidationType

/-- What a parameter can be assigned in a request. -/
inductive Assignment where
  | text (value : String)
  | number (value : ℚ)
deriving DecidableEq, Repr

def Assignment.toText : Assignment → String
  | .text value => value
  | .number value => toString value

/-- An assignment is sent as a text or as a number. -/
def ValidationType.assignment : ValidationType Assignment where
  name := "assignment"
  read
    | .string value => some (.text value)
    | .number value => some (.number value)
    | _ => none

variable {α : Type}

/-- `validate_type`, whose error names the type and the key. -/
def validateType (value : Json) (valueType : ValidationType α) (key : Option String) :
    Except ValidationError α :=
  match valueType.read value with
  | some result => .ok result
  | none => .error (.invalidType valueType.name key)

/-- `get_opt_with_validation`: an absent key and a null are both none. -/
def getOptWithValidation (object : JsonObject) (key : String) (valueType : ValidationType α) :
    Except ValidationError (Option α) :=
  match object.get key with
  | .null => .ok none
  | value => (validateType value valueType (some key)).map some

/-- `get_with_validation`: a null counts as a missing key. -/
def getWithValidation (object : JsonObject) (key : String) (valueType : ValidationType α) :
    Except ValidationError α :=
  match object.get key with
  | .null => .error (.missingJsonKey key)
  | value => validateType value valueType (some key)

@[simp] theorem validateType_eq_ok {value : Json} {valueType : ValidationType α} {key : Option String}
    {result : α} : validateType value valueType key = .ok result ↔ valueType.read value = some result := by
  unfold validateType
  cases valueType.read value with
  | none => simp
  | some other => simp

/-- A required member is read exactly if its value is an instance; null is an instance of no type here. -/
theorem getWithValidation_eq_ok {object : JsonObject} {key : String} {valueType : ValidationType α}
    (notNull : valueType.read .null = none) {result : α} :
    getWithValidation object key valueType = .ok result ↔ valueType.read (object.get key) = some result := by
  unfold getWithValidation
  split
  · rename_i isNull
    simp [isNull, notNull]
  · exact validateType_eq_ok

/-- What is read is what was sent, in its type. -/
theorem getOptWithValidation_eq_some {object : JsonObject} {key : String} {valueType : ValidationType α}
    (notNull : valueType.read .null = none) {result : α} :
    getOptWithValidation object key valueType = .ok (some result) ↔
      valueType.read (object.get key) = some result := by
  unfold getOptWithValidation
  split
  · rename_i isNull
    simp [isNull, notNull]
  · simp

/-- An accepted member is read as its type reads it. -/
theorem getOptWithValidation_eq_read {object : JsonObject} {key : String} {valueType : ValidationType α}
    (notNull : valueType.read .null = none) {result : Option α}
    (read : getOptWithValidation object key valueType = .ok result) : valueType.read (object.get key) = result := by
  unfold getOptWithValidation at read
  split at read
  · rename_i isNull
    cases read
    rw [isNull]
    exact notNull
  · rw [Raising.map_eq_ok] at read
    rcases read with ⟨value, valid, rfl⟩
    exact validateType_eq_ok.mp valid

theorem isPresent_of_getOptWithValidation {object : JsonObject} {key : String} {valueType : ValidationType α}
    (read : getOptWithValidation object key valueType = .ok none) : object.isPresent key = false := by
  unfold getOptWithValidation at read
  split at read
  · rename_i isNull
    simp [JsonObject.isPresent, isNull]
  · rw [Raising.map_eq_ok] at read
    rcases read with ⟨_, _, impossible⟩
    cases impossible

theorem getOptWithValidation_of_not_hasKey {object : JsonObject} {key : String} {valueType : ValidationType α}
    (missing : object.hasKey key = false) : getOptWithValidation object key valueType = .ok none := by
  rw [getOptWithValidation, JsonObject.get_eq_null_of_not_hasKey missing]

/-- A list is read as a list of objects exactly if it is one. -/
theorem readObjects_eq_some {items : List Json} {values : List JsonObject} :
    items.mapM ValidationType.object.read = some values ↔ items = values.map .object := by
  induction items generalizing values with
  | nil =>
      cases values with
      | nil => simp
      | cons value rest => simp
  | cons item items inductionHypothesis =>
      rw [List.mapM_cons]
      simp only [Option.bind_eq_bind, Option.bind_eq_some_iff, inductionHypothesis, Option.pure_def]
      constructor
      · rintro ⟨value, read, rest, rfl, same⟩
        cases item with
        | object members =>
            obtain rfl := Option.some.inj read
            rw [← Option.some.inj same, List.map_cons]
        | null => cases read
        | boolean _ => cases read
        | number _ => cases read
        | string _ => cases read
        | array _ => cases read
      · intro same
        cases values with
        | nil => cases same
        | cons value rest =>
            rw [List.map_cons, List.cons.injEq] at same
            refine ⟨value, ?_, rest, same.2, rfl⟩
            rw [same.1]
            rfl

end Zigopt
