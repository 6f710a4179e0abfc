/-
Module: Zigopt.Api.PagingMarker
Layer: Api
Purpose: The way of a paging marker to the client and back. The pager makes a message of the values of its fields, the
  API sends the message as base64 without its padding, takes a text back, and the query reads the values for its
  fields. Serializing the messages is left to protobuf.
Main exports: PagingMarker, PagingProtobuf, buildMarkerFromFieldValues, serializePagingMarker,
  deserializePagingMarker, markerToRhs
-/
import Zigopt.Lib.Base64
import Zigopt.Lib.Binary64
import Zigopt.Lib.Raising
import Zigopt.Pagination.Paging

namespace Zigopt.Api

open Raising
open Pagination (FieldValue Key InInt64)

/-! ### The message -/

/-- `google.protobuf.Timestamp`. -/
structure Timestamp where
  seconds : ℤ
  nanos : ℤ
deriving DecidableEq, Repr

/-- The `type` oneof of a `PagingSymbol`. NaN is left out. -/
inductive SymbolType where
  | doubleValue (value : Pagination.PyFloat)
  | intValue (value : ℤ)
  | nullValue
  | stringValue (value : String)
  | boolValue (value : Bool)
  | timestampValue (value : Timestamp)
deriving DecidableEq, Repr

structure PagingSymbol where
  type : Option SymbolType
deriving DecidableEq, Repr

/-- The protobuf of a marker: one symbol for each field of the sort key. -/
structure PagingMarker where
  symbols : List PagingSymbol
deriving DecidableEq, Repr

/-- The timestamps from the year 1 to the year 9999. -/
structure Timestamp.Fits (timestamp : Timestamp) : Prop where
  seconds : -62135596800 ≤ timestamp.seconds ∧ timestamp.seconds ≤ 253402300799
  nanos : 0 ≤ timestamp.nanos ∧ timestamp.nanos ≤ 999999999

/-- The fields hold what their types hold. -/
def SymbolType.Fits : SymbolType → Prop
  | .doubleValue (.finite value) => Binary64.IsDouble value
  | .intValue value => InInt64 value
  | .timestampValue value => value.Fits
  | _ => True

def PagingMarker.Fits (marker : PagingMarker) : Prop :=
  ∀ symbol ∈ marker.symbols, ∀ type ∈ symbol.type, type.Fits

/-! ### Datetimes -/

/-- A naive datetime as the microseconds since the start of 1970, from `datetime.min` to `datetime.max`. -/
def InDatetimeRange (microseconds : ℤ) : Prop :=
  -62135596800000000 ≤ microseconds ∧ microseconds ≤ 253402300799999999

instance (microseconds : ℤ) : Decidable (InDatetimeRange microseconds) :=
  inferInstanceAs (Decidable (_ ∧ _))

/-- What protobuf is relied on for: messages and datetimes come back as they were. `ParseFromString` raises nothing but
    the two errors that are caught, and `ToDatetime` raises for what is no datetime. -/
structure PagingProtobuf where
  serializeToString : PagingMarker → List UInt8
  parseFromString : List UInt8 → Option PagingMarker
  fromDatetime : ℤ → Timestamp
  toDatetime : Timestamp → Option ℤ
  parse_serialize : ∀ marker : PagingMarker, marker.Fits → parseFromString (serializeToString marker) = some marker
  serialize_ne_nil : ∀ marker : PagingMarker, marker.symbols ≠ [] → serializeToString marker ≠ []
  fromDatetime_fits : ∀ naive, InDatetimeRange naive → (fromDatetime naive).Fits
  toDatetime_fromDatetime : ∀ naive, InDatetimeRange naive → toDatetime (fromDatetime naive) = some naive

/-- What ends the way of a marker. `badParam` is the error that a client gets to see. -/
inductive MarkerError where
  | badParam (message : String)
  | valueError (message : String)
  | overflowError
  | assertionError
deriving DecidableEq, Repr

/-- `aware_datetime_to_naive_datetime`, in the default time zone: `astimezone` goes by UTC. -/
def awareDatetimeToNaiveDatetime (offset microseconds : ℤ) : Except MarkerError ℤ :=
  if InDatetimeRange microseconds ∧ InDatetimeRange (microseconds + offset) then .ok (microseconds + offset)
  else .error .overflowError

/-- `naive_datetime_to_aware_datetime`. -/
def naiveDatetimeToAwareDatetime (offset naive : ℤ) : ℤ := naive - offset

/-! ### The pager -/

section Marker

variable (protobuf : PagingProtobuf) (offset : ℤ)

/-- `symbol.int_value = value`. -/
def setIntValue (value : ℤ) : Except MarkerError PagingSymbol :=
  if InInt64 value then .ok ⟨some (.intValue value)⟩ else .error (.valueError "Value out of range")

/-- A round of `_build_marker_from_field_values`. A bool is no number for `is_number`, and neither is an infinity,
    which is nothing else either. -/
def buildSymbol : FieldValue → Except MarkerError PagingSymbol
  | .null => .ok ⟨some .nullValue⟩
  | .datetime microseconds => do
      let naive ← awareDatetimeToNaiveDatetime offset microseconds
      return ⟨some (.timestampValue (protobuf.fromDatetime naive))⟩
  | .int value => setIntValue value
  | .float (.finite value) => .ok ⟨some (.doubleValue (.finite value))⟩
  | .str value => .ok ⟨some (.stringValue value)⟩
  | .bool value => .ok ⟨some (.boolValue value)⟩
  | .float .inf => .error (.valueError "Unknown field value: inf")
  | .float .negInf => .error (.valueError "Unknown field value: -inf")

/-- `_build_marker_from_field_values`. -/
def buildMarkerFromFieldValues (fieldValues : Key) : Except MarkerError PagingMarker := do
  let symbols ← fieldValues.mapM (buildSymbol protobuf offset)
  return ⟨symbols⟩

/-- `get_value_of_paging_symbol`. -/
def getValueOfPagingSymbol (symbol : PagingSymbol) : Except MarkerError FieldValue :=
  match symbol.type with
  | none => .ok .null
  | some .nullValue => .ok .null
  | some (.timestampValue value) =>
      match protobuf.toDatetime value with
      | some naive => .ok (.datetime (naiveDatetimeToAwareDatetime offset naive))
      | none => .error .overflowError
  | some (.doubleValue value) => .ok (.float value)
  | some (.intValue value) => .ok (.int value)
  | some (.stringValue value) => .ok (.str value)
  | some (.boolValue value) => .ok (.bool value)

/-- `_get_field_values_from_marker`. -/
def getFieldValuesFromMarker (marker : PagingMarker) : Except MarkerError Key :=
  marker.symbols.mapM (getValueOfPagingSymbol protobuf offset)

/-! ### The text -/

/-- Base64 as `urlsafe_b64encode` spells it and `urlsafe_b64decode` reads it, which knows the letters of both kinds. -/
def urlSafe : Base64.Alphabet where
  letter value :=
    if value < 26 then Char.ofNat (65 + value)
    else if value < 52 then Char.ofNat (71 + value)
    else if value < 62 then Char.ofNat (value - 4)
    else if value = 62 then '-' else '_'
  value character :=
    if character.isUpper then some (Fin.ofNat 64 (character.toNat - 65))
    else if character.isLower then some (Fin.ofNat 64 (character.toNat - 71))
    else if character.isDigit then some (Fin.ofNat 64 (character.toNat + 4))
    else if character = '-' ∨ character = '+' then some 62
    else if character = '_' ∨ character = '/' then some 63
    else none
  value_letter := by decide
  value_pad := by decide

/-- What `urlsafe_b64decode` raises. `binascii.Error` is a `ValueError`, but not the only one. -/
inductive DecodeFailure where
  | notAscii
  | binascii (failure : Base64.Failure)
deriving DecidableEq, Repr

def isAscii (text : String) : Bool := text.toList.all fun character => character.toNat < 128

def urlsafeB64decode (text : String) : Except DecodeFailure (List UInt8) :=
  if isAscii text then (Base64.decode urlSafe text.toList).mapError .binascii else .error .notAscii

/-- `decode_base64_marker_without_padding`. -/
def decodeBase64MarkerWithoutPadding (serializedMarker : String) : Except DecodeFailure (List UInt8) :=
  urlsafeB64decode (String.ofList (Base64.padded serializedMarker.toList))

/-- `encode_base64_marker_without_padding`. -/
def encodeBase64MarkerWithoutPadding (marker : List UInt8) : String :=
  String.ofList (Base64.stripped (Base64.encode urlSafe marker))

/-- `deserialize_paging_marker`. Of the errors of the base64 only `binascii.Error` is caught. -/
def deserializePagingMarker (serializedMarker : String) : Except MarkerError PagingMarker :=
  if serializedMarker = "" then .error (.badParam "Invalid paging marker, cannot be an empty string")
  else
    match decodeBase64MarkerWithoutPadding serializedMarker with
    | .error .notAscii => .error (.valueError "string argument should contain only ASCII characters")
    | .error (.binascii _) => .error (.badParam s!"Invalid paging marker: {serializedMarker}")
    | .ok bytes =>
        match protobuf.parseFromString bytes with
        | none => .error (.badParam s!"Invalid paging marker: {serializedMarker}")
        | some marker => .ok marker

/-- `serialize_paging_marker`. -/
def serializePagingMarker (marker : PagingMarker) : Except MarkerError String :=
  let serializedMarker := encodeBase64MarkerWithoutPadding (protobuf.serializeToString marker)
  if serializedMarker = "" then .error .assertionError else .ok serializedMarker

/-! ### The query -/

/-- A field of the pager: whether its column is a JSONB one. -/
inductive FieldType where
  | jsonb
  | other
deriving DecidableEq, Repr

/-- A value of the compared tuple, bound as it is or with a cast to JSONB. -/
inductive RhsValue where
  | plain (value : FieldValue)
  | castToJsonb (value : FieldValue)
deriving DecidableEq, Repr

/-- The value of the right-hand side, whatever it is cast to. -/
def RhsValue.value : RhsValue → FieldValue
  | plain value => value
  | castToJsonb value => value

def castValue : FieldType → FieldValue → RhsValue
  | .jsonb, value => .castToJsonb value
  | .other, value => .plain value

/-- `marker_to_rhs`. -/
def markerToRhs (fields : List FieldType) (marker : PagingMarker) : Except MarkerError (List RhsValue) :=
  if fields.length ≠ marker.symbols.length then .error (.badParam "Invalid paging marker")
  else do
    let compareValues ← getFieldValuesFromMarker protobuf offset marker
    return List.zipWith castValue fields compareValues

end Marker

end Zigopt.Api
