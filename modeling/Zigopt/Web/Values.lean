/-
Module: Zigopt.Web.Values
Layer: Web
Purpose: JavaScript values as the pages read them: what a value has under a name, of its own or inherited, and its
  conversions to a number and to a text.
Main exports: Value, Realm, Realm.property, Realm.toNumber, Realm.toText, Realm.walk
-/
import Mathlib.Data.List.Basic
import Mathlib.Data.Rat.Defs

namespace Zigopt.Web

/-- A value; objects, arrays and functions are references, so that `===` is equality. There is no NaN in JSON. -/
inductive Value where
  | undefined
  | null
  | boolean (value : Bool)
  | number (value : ℚ)
  | string (text : String)
  | reference (address : ℕ)
deriving DecidableEq, Repr

namespace Value

/-- `isDefinedAndNotNull`. -/
def isDefinedAndNotNull : Value → Bool
  | .undefined => false
  | .null => false
  | _ => true

/-- `_.isNumber`. -/
def isNumber : Value → Bool
  | .number _ => true
  | _ => false

/-- `Boolean(value)`. -/
def isTruthy : Value → Bool
  | .undefined => false
  | .null => false
  | .boolean value => value
  | .number value => value ≠ 0
  | .string text => text ≠ ""
  | .reference _ => true

end Value

/-- What stands behind the references, what values inherit (from a prototype, or the length and the characters of a
    text), and the conversions of numbers, texts and objects. -/
structure Realm where
  members : ℕ → List (String × Value)
  inherited : Value → String → Option Value := fun _ _ => none
  numberText : ℚ → String := fun value => toString value
  parseNumber : String → Option ℚ := fun _ => none
  objectText : ℕ → String := fun _ => "[object Object]"
  objectNumber : ℕ → Option ℚ := fun _ => none

namespace Realm

variable (realm : Realm)

/-- The own property of this name. -/
def own : Value → String → Option Value
  | .reference address, name => (realm.members address).lookup name
  | _, _ => none

/-- `value[name]`, which is undefined where there is no such property. -/
def property (value : Value) (name : String) : Option Value :=
  (realm.own value name).or (realm.inherited value name)

/-- `Number(value)`, without a value for NaN. -/
def toNumber : Value → Option ℚ
  | .undefined => none
  | .null => some 0
  | .boolean value => some (if value then 1 else 0)
  | .number value => some value
  | .string text => realm.parseNumber text
  | .reference address => realm.objectNumber address

/-- `String(value)`. -/
def toText : Value → String
  | .undefined => "undefined"
  | .null => "null"
  | .boolean value => if value then "true" else "false"
  | .number value => realm.numberText value
  | .string text => text
  | .reference address => realm.objectText address

/-- The loop of lodash's `get` along a path. -/
def walk : Value → List String → Value
  | value, [] => value
  | .undefined, _ :: _ => .undefined
  | .null, _ :: _ => .undefined
  | value, name :: rest => walk ((realm.property value name).getD .undefined) rest

/-- lodash's `get`: a property of this name, or else what the path leads to that lodash reads in the key. -/
def lodashGet (castPath : String → List String) (object : Value) (key : String) : Value :=
  match realm.property object key with
  | some value => value
  | none => realm.walk object (castPath key)

/-- What a value has of its own along a path. -/
def ownValue : Value → List String → Value
  | value, [] => value
  | value, name :: rest =>
      match realm.own value name with
      | some next => ownValue next rest
      | none => .undefined

end Realm

/-- The UTF-16 code units of a text, by which JavaScript sorts. -/
def utf16 (text : String) : List ℕ :=
  text.toList.flatMap fun character =>
    let code := character.toNat
    if code < 0x10000 then [code] else [0xd800 + (code - 0x10000) / 0x400, 0xdc00 + (code - 0x10000) % 0x400]

end Zigopt.Web
