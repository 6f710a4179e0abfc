/-
Module: Zigopt.Web.CodeGenerator
Layer: Web
Purpose: The code that a page shows for creating an experiment again in Python (`component/code_generator`): the text of
  the create call with the members of the experiment as keyword arguments, beside what these have to be.
Main exports: codeOf, codeOfExperiment, kept, keptExperiment, evaluateCreate, Denotes, NamedKeys
-/
import Zigopt.Lib.PythonLiteral
import Zigopt.Web.Dimensions

namespace Zigopt.Web

open PythonLiteral

/-! ### The generator -/

/-- `INDENT`. -/
def indentSize : List Char := [' ', ' ']

/-- `JSON_OBJECT_DENY_LIST`. -/
def jsonObjectDenyList : List String := ["created", "id", "object", "updated"]

/-- `EXPERIMENT_DENY_LIST`. -/
def experimentDenyList : List String :=
  jsonObjectDenyList ++ ["client", "deleted", "metric", "progress", "state", "user", "development", "enum_index"]

/-- The create call has a deny list of its own. -/
def denyList (isApiCall : Bool) : List String := if isApiCall then experimentDenyList else jsonObjectDenyList

def keywordCode : Option Bool → List Char
  | none => ['N', 'o', 'n', 'e']
  | some true => ['T', 'r', 'u', 'e']
  | some false => ['F', 'a', 'l', 's', 'e']

/-- `itemJoiner` and `keyJoiner`. -/
def joiner : List Char := [',', '\n']

/-- The pieces of each item and a joiner, flattened, less the last joiner. -/
def innerCode (pieces : List (List (List Char))) : List (List Char) :=
  (pieces.flatMap fun piece => piece ++ [joiner]).dropLast

/-- `EnclosedBlock`; the closer is indented like the children. -/
def enclosedBlock (indent opener closer : List Char) (children : List (List Char)) : List Char :=
  if children = [] then opener ++ closer
  else opener ++ '\n' :: (children.flatten ++ '\n' :: (indent ++ indentSize ++ closer))

def arrayCode (indent : List Char) (codes : List (List Char)) : List Char :=
  enclosedBlock indent ['['] [']'] (innerCode (codes.map fun code => [indent ++ indentSize, code]))

def sortKey (key : String) : ℕ := if key ∈ ["name", "parameters", "min"] then 0 else 1

/-- `.sortBy("key").sortBy("sortKey")`. -/
def sortEntries (entries : List (String × List Char)) : List (String × List Char) :=
  (entries.insertionSort fun first second => utf16 first.1 ≤ utf16 second.1).insertionSort
    fun first second => sortKey first.1 ≤ sortKey second.1

/-- The key is written as it is; `keyCloser` is empty. -/
def keyOpener (key : String) : List Char := key.toList ++ ['=']

def objectCode (indent opener : List Char) (entries : List (String × List Char)) : List Char :=
  enclosedBlock indent opener [')'] (innerCode ((sortEntries entries).map fun entry =>
    [indent ++ indentSize, keyOpener entry.1, entry.2, []]))

section Generator

variable (numerals : Numerals)

mutual

/-- The literal of a value in Python's syntax, indented under what it stands in. -/
def codeOf (indent : List Char) : Json → Except JsError (List Char)
  | .null => .ok (keywordCode none)
  | .boolean value => .ok (keywordCode (some value))
  | .number value => .ok (numerals.text value)
  | .string text => .ok (jsonString text)
  | .array items => do
      .ok (arrayCode indent (← codeOfItems (indent ++ indentSize) items))
  | .object members => do
      .ok (objectCode indent ['d', 'i', 'c', 't', '('] (← codeOfMembers (indent ++ indentSize) false members))

def codeOfItems (indent : List Char) : List Json → Except JsError (List (List Char))
  | [] => .ok []
  | item :: rest => do
      .ok ((← codeOf indent item) :: (← codeOfItems indent rest))

/-- `_.omit` assigns what it keeps to a new object, where `__proto__` becomes no key. -/
def codeOfMembers (indent : List Char) (isApiCall : Bool) :
    List (String × Json) → Except JsError (List (String × List Char))
  | [] => .ok []
  | (key, value) :: rest =>
      if key ∈ denyList isApiCall ∨ key = "__proto__" then codeOfMembers indent isApiCall rest
      else if key = "categorical_values" ∧ isApiCall = false then do
        .ok ((key, ← codeOfValues indent value) :: (← codeOfMembers indent isApiCall rest))
      else do
        .ok ((key, ← codeOf indent value) :: (← codeOfMembers indent isApiCall rest))

/-- Under `categorical_values`: the names of what an array or an object has. -/
def codeOfValues (indent : List Char) : Json → Except JsError (List Char)
  | .null => .ok (keywordCode none)
  | .boolean value => .ok (keywordCode (some value))
  | .number value => .ok (numerals.text value)
  | .string text => .ok (jsonString text)
  | .array items => do
      .ok (arrayCode indent (← codeOfNames (indent ++ indentSize) items))
  | .object members => do
      .ok (arrayCode indent (← codeOfMemberNames (indent ++ indentSize) members))

/-- There is no code for an undefined name. -/
def codeOfNames (indent : List Char) : List Json → Except JsError (List (List Char))
  | [] => .ok []
  | .object members :: rest => do
      .ok ((← codeOfName indent members) :: (← codeOfNames indent rest))
  | _ :: _ => .error .typeError

def codeOfMemberNames (indent : List Char) : List (String × Json) → Except JsError (List (List Char))
  | [] => .ok []
  | (_, .object members) :: rest => do
      .ok ((← codeOfName indent members) :: (← codeOfMemberNames indent rest))
  | _ :: _ => .error .typeError

def codeOfName (indent : List Char) : List (String × Json) → Except JsError (List Char)
  | [] => .error .typeError
  | (key, value) :: rest => if key = "name" then codeOf indent value else codeOfName indent rest

end

/-- `experiment = conn.experiments().create(`. -/
def createOpener : List Char :=
  ['e', 'x', 'p', 'e', 'r', 'i', 'm', 'e', 'n', 't', ' ', '=', ' ', 'c', 'o', 'n', 'n', '.', 'e', 'x', 'p', 'e', 'r', 'i',
    'm', 'e', 'n', 't', 's', '(', ')', '.', 'c', 'r', 'e', 'a', 't', 'e', '(']

/-- The text of the create call. -/
def codeOfExperiment (experiment : JsonObject) : Except JsError (List Char) := do
  .ok (objectCode [] createOpener (← codeOfMembers numerals indentSize true experiment))

end Generator

/-! ### What the code has to denote -/

mutual

/-- The deny-listed keys are removed at every level, and categorical values become their names. Nothing where a key
    comes twice or a categorical value has no name. -/
def kept : Json → Option Json
  | .null => some .null
  | .boolean value => some (.boolean value)
  | .number value => some (.number value)
  | .string text => some (.string text)
  | .array items => (keptItems items).map .array
  | .object members => (keptMembers false members).bind dictionary

def keptItems : List Json → Option (List Json)
  | [] => some []
  | item :: rest => do
      some ((← kept item) :: (← keptItems rest))

def keptMembers (isApiCall : Bool) : List (String × Json) → Option JsonObject
  | [] => some []
  | (key, value) :: rest =>
      if key ∈ denyList isApiCall then keptMembers isApiCall rest
      else if key = "categorical_values" ∧ isApiCall = false then do
        some ((key, ← keptValues value) :: (← keptMembers isApiCall rest))
      else do
        some ((key, ← kept value) :: (← keptMembers isApiCall rest))

def keptValues : Json → Option Json
  | .null => some .null
  | .boolean value => some (.boolean value)
  | .number value => some (.number value)
  | .string text => some (.string text)
  | .array items => (keptNames items).map .array
  | .object _ => none

def keptNames : List Json → Option (List Json)
  | [] => some []
  | .object members :: rest => do
      some ((← keptName members) :: (← keptNames rest))
  | _ :: _ => none

def keptName : List (String × Json) → Option Json
  | [] => none
  | (key, value) :: rest => if key = "name" then kept value else keptName rest

end

/-- The members of the experiment that the snippet shows. -/
def keptExperiment (experiment : JsonObject) : Option Json := (keptMembers true experiment).bind dictionary

/-- The keyword arguments of a create call, where nothing else is in the text. -/
def evaluateCreate (names : Names) (numerals : Numerals) (text : List Char) : Option Json :=
  let arguments := text.drop createOpener.length
  if text.take createOpener.length = createOpener then
    match readMembers names numerals arguments.length arguments with
    | some (members, []) => dictionary members
    | _ => none
  else none

/-- The generated text is a create call whose keyword arguments are literals and evaluate to what has to be kept. -/
def Denotes (names : Names) (numerals : Numerals) (experiment : JsonObject) : Prop :=
  ∃ value text, keptExperiment experiment = some value ∧ codeOfExperiment numerals experiment = .ok text ∧
    evaluateCreate names numerals text = some value

/-- All keys that are kept, at every level, are names of Python, and none is `__proto__`. -/
def NamedKeys (names : Names) (experiment : JsonObject) : Prop :=
  ∃ value, keptExperiment experiment = some value ∧
    KeysAre (fun key => names.isName key = true ∧ key ≠ "__proto__") value

end Zigopt.Web
