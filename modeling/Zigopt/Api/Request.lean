/-
Module: Zigopt.Api.Request
Layer: Api
Purpose: A request to the API (`api/request.py`): how its body is read, with the checks that the JSON decoder is given
  for objects, floats and constants, and what of its parameters and headers is logged.
Main exports: PyValue, JsonText, JsonDecoder, Request, parseJson, params, sanitizedParams, sanitizedHeaders
-/
import Mathlib.Data.Rat.Defs
import Zigopt.Lib.Raising

namespace Zigopt.Api

/-! ### Values -/

/-- A double, with its value where it is a number. -/
inductive PyFloat where
  | finite (value : ℚ)
  | infinite (isNegative : Bool)
  | nan
deriving DecidableEq, Repr

/-- What `json.loads` makes of a body, with Python's floats. -/
inductive PyValue where
  | none
  | boolean (value : Bool)
  | integer (value : ℤ)
  | float (value : PyFloat)
  | string (text : String)
  | list (items : List PyValue)
  | dict (members : List (String × PyValue))

/-- A JSON text as the decoder reads it: objects with all their pairs, and floats and constants as they are written. -/
inductive JsonText where
  | null
  | boolean (value : Bool)
  | integer (value : ℤ)
  | float (numeral : String)
  | constant (name : String)
  | string (text : String)
  | array (items : List JsonText)
  | object (pairs : List (String × JsonText))

/-- The standard library: decoding bytes, scanning a JSON text, `float(numeral)`. Nothing is not a JSON text. -/
structure JsonDecoder where
  decode : String → List UInt8 → Option String
  scan : String → Option JsonText
  float : String → PyFloat
  scan_empty : ∀ encoding, (decode encoding []).bind scan = none

/-! ### Reading a body -/

inductive RequestFailure where
  | invalidString (text : String)
  | duplicateKey (key : String)
  | invalidJsonValue (text : String)
  | invalidJson
  | malformedBody
  | notAnObject
deriving DecidableEq, Repr

def validateApiInputString (inputString : String) : Except RequestFailure String :=
  if '\x00' ∈ inputString.toList then .error (.invalidString inputString) else .ok inputString

def validateApiInput : PyValue → Except RequestFailure PyValue
  | .string text => (validateApiInputString text).map .string
  | value => .ok value

/-- `object_pairs_hook_raise_on_duplicates`, from the members that the dictionary has already. -/
def objectPairsHookRaiseOnDuplicates (outputDict : List (String × PyValue)) :
    List (String × PyValue) → Except RequestFailure (List (String × PyValue))
  | [] => .ok outputDict
  | (key, value) :: orderedPairs => do
      let key ← validateApiInputString key
      let value ← validateApiInput value
      if key ∈ outputDict.map Prod.fst then
        .error (.duplicateKey key)
      else
        objectPairsHookRaiseOnDuplicates (outputDict ++ [(key, value)]) orderedPairs

def parseConstant (constant : String) : Except RequestFailure PyValue :=
  .error (.invalidJsonValue constant)

/-- `is_number`, of a float. -/
def PyFloat.isNumber : PyFloat → Bool
  | .finite _ => true
  | .infinite _ => false
  | .nan => false

section Decoder

variable (decoder : JsonDecoder)

def parseFloat (floatStr : String) : Except RequestFailure PyValue :=
  let ret := decoder.float floatStr
  if ret.isNumber then .ok (.float ret) else .error (.invalidJsonValue floatStr)

mutual

/-- The decoder makes its values from the inside out and calls the hooks on its way. -/
def load : JsonText → Except RequestFailure PyValue
  | .null => .ok .none
  | .boolean value => .ok (.boolean value)
  | .integer value => .ok (.integer value)
  | .float numeral => parseFloat decoder numeral
  | .constant name => parseConstant name
  | .string text => .ok (.string text)
  | .array items => do
      let values ← loadItems items
      pure (.list values)
  | .object pairs => do
      let orderedPairs ← loadPairs pairs
      let members ← objectPairsHookRaiseOnDuplicates [] orderedPairs
      pure (.dict members)

def loadItems : List JsonText → Except RequestFailure (List PyValue)
  | [] => .ok []
  | item :: rest => do
      let value ← load item
      let values ← loadItems rest
      pure (value :: values)

def loadPairs : List (String × JsonText) → Except RequestFailure (List (String × PyValue))
  | [] => .ok []
  | (key, item) :: rest => do
      let value ← load item
      let pairs ← loadPairs rest
      pure ((key, value) :: pairs)

end

/-- The text of a body, where it is one. -/
def bodyText (data : List UInt8) (encoding : String) : Option JsonText :=
  (decoder.decode encoding data).bind decoder.scan

def asJson (data : List UInt8) (encoding : String) : Except RequestFailure PyValue :=
  match bodyText decoder data encoding with
  | none => .error .invalidJson
  | some text => load decoder text

end Decoder

/-- What the model reads of a WSGI request. -/
structure Request where
  method : String
  args : List (String × String) := []
  mimetype : Option String := none
  charset : Option String := none
  data : List UInt8 := []
  /-- The headers by the names they were sent under. -/
  headers : List (String × String) := []

/-- An empty body is not malformed. -/
def onJsonLoadingFailed (data : List UInt8) : Except RequestFailure (List (String × PyValue)) :=
  if data = [] then .ok [] else .error .malformedBody

def Request.encoding (request : Request) : String :=
  match request.charset with
  | none => "utf-8"
  | some "" => "utf-8"
  | some charset => charset

/-- Who names another content type does not send JSON. -/
def parseJson (decoder : JsonDecoder) (request : Request) : Except RequestFailure (Option (List (String × PyValue))) :=
  if request.mimetype ∈ [none, some "", some "application/x-www-form-urlencoded", some "application/json"] then
    match asJson decoder request.data request.encoding with
    | .error _ => (onJsonLoadingFailed request.data).map some
    | .ok (.dict members) => .ok (some members)
    | .ok _ => .error .notAnObject
  else
    .ok none

def validateArgs (args : List (String × String)) : Except RequestFailure (List (String × PyValue)) :=
  args.mapM fun arg => do
    let key ← validateApiInputString arg.1
    let value ← validateApiInputString arg.2
    pure (key, PyValue.string value)

/-- For other methods the parameters stay unset. -/
def params (decoder : JsonDecoder) (request : Request) : Except RequestFailure (Option (List (String × PyValue))) :=
  if request.method ∈ ["GET", "DELETE"] then
    (validateArgs request.args).map some
  else if request.method ∈ ["PUT", "POST", "MERGE"] then
    (parseJson decoder request).map fun jsonBlob => some (jsonBlob.getD [])
  else
    .ok none

/-! ### What is logged -/

def sensitiveParams : List String :=
  ["user_token", "client_token", "old_password", "new_password", "password", "password_reset_code", "invite_code",
    "code", "stripe_token"]

mutual

def sanitize : PyValue → PyValue
  | .list items => .list (sanitizeItems items)
  | .dict members => .dict (sanitizeMembers members)
  | value => value

def sanitizeItems : List PyValue → List PyValue
  | [] => []
  | item :: rest => sanitize item :: sanitizeItems rest

def sanitizeMembers : List (String × PyValue) → List (String × PyValue)
  | [] => []
  | (key, value) :: rest =>
      (key, if key ∉ sensitiveParams then sanitize value else .string "*****") :: sanitizeMembers rest

end

/-- The parameters of a request as they are logged. -/
def sanitizedParams (decoder : JsonDecoder) (request : Request) :
    Except RequestFailure (Option (List (String × PyValue))) :=
  (params decoder request).map fun members => members.map sanitizeMembers

def sensitiveHeaders : List String :=
  ["Authorization", "X-SigOpt-Client-Token", "X-SigOpt-User-Token", "X-Nginx-Secret"]

/-- `str.title`, for the rest of a text: the first letter after another character becomes a capital. -/
def titleFrom (inWord : Bool) : List Char → List Char
  | [] => []
  | character :: rest =>
      (if inWord then character.toLower else character.toUpper) :: titleFrom character.isAlpha rest

/-- The name of a header as the framework gives it. -/
def deliveredName (name : String) : String :=
  String.ofList (titleFrom false (name.toList.map fun character => if character = '_' then '-' else character))

def sanitizeValue (name value : String) : String :=
  if name ∈ sensitiveHeaders then
    if value = "" then "*" else "*****"
  else
    value

/-- The headers as they are logged, under the names that WSGI delivers. -/
def sanitizedHeaders (request : Request) : List (String × String) :=
  request.headers.map fun header => (deliveredName header.1, sanitizeValue (deliveredName header.1) header.2)

end Zigopt.Api
