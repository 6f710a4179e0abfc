/-
Module: Zigopt.Db.ColumnScalars
Layer: Db
Purpose: What the cast of a stored scalar gives, when it stops the statement, and when SQL compares the result as Python
  compares the scalar.
Main exports: hasCast, castable, stored, cast_stored, cast_refused, sqlScalar, sendable, comparesAlike, compares_iff
-/
import Zigopt.Db.FollowedPaths

namespace Zigopt.Db

open Comparison Protobuf Sql

/-! ### Casts -/

/-- Bytes have no descriptor, and an enum with an explicit default has no cast. -/
def hasCast : ScalarType → Option Scalar → Bool
  | .bytes, _ => false
  | .enum _, some _ => false
  | _, _ => true

/-- An enum is stored by its name, which is no integer; an integer may be too large and a number infinite. -/
def castable : ScalarType → Option Scalar → Bool
  | .enum _, value => value.isNone
  | _, some (.int value) => value < 2 ^ 63
  | _, some (.float (.infinity _)) => false
  | _, _ => true

/-- What is read of the document: single precision in its shortest decimal. -/
def stored (toShortestFloat : ShortestFloat) (type : ScalarType) : Scalar → Scalar
  | .float (.finite value) => .float (.finite (if type = .float then toShortestFloat value else value))
  | value => value

def sqlType (type : ScalarType) : SqlType :=
  match pythonType type with
  | some python => getCastFromPythonType python
  | none => .bigint

theorem cast_descriptor {type : ScalarType} {default : Option Scalar} (cast : hasCast type default = true) :
    ∃ descriptor, descriptorOf (.scalar type default) = .ok (.scalar descriptor) ∧
      getCastFromDescriptor descriptor = .ok (sqlType type) ∧
      defaultValueForDescriptor descriptor = .ok (readScalar type default none) := by
  cases default with
  | none => cases type <;> first | exact ⟨_, rfl, rfl, rfl⟩ | cases cast
  | some value => cases type <;> first | exact ⟨_, rfl, rfl, rfl⟩ | cases cast

theorem no_cast {type : ScalarType} {default : Option Scalar} (cast : hasCast type default = false)
    {descriptor : Descriptor} (described : descriptorOf (.scalar type default) = .ok descriptor) :
    ∃ scalar failure, descriptor = .scalar scalar ∧ getCastFromDescriptor scalar = .error failure := by
  cases type with
  | bytes => cases described
  | enum values =>
      cases default with
      | none => cases cast
      | some value =>
          cases described
          exact ⟨_, _, rfl, rfl⟩
  | _ => cases cast

/-- The integers of a type are stored in digits or as a number, and are at least those of 64 bits. -/
theorem cast_integer {toShortestFloat : ShortestFloat} {type : ScalarType} {value : ℤ}
    (held : type.holdsInt value = true) (notEnum : type.isEnum = false) :
    sqlType type = .bigint ∧ -2 ^ 63 ≤ value ∧
      (textOf (some (scalarJson toShortestFloat type (.int value)))).cast .bigint = toBigint value := by
  have digits : (textOf (some (.string value.repr))).cast .bigint = toBigint value := by
    rw [textOf, cast_text_bigint, readInteger_repr]
  have asNumber : (textOf (some (.number value))).cast .bigint = toBigint value := rfl
  cases type <;> simp [ScalarType.holdsInt, ScalarType.isEnum] at held notEnum <;>
    first
    | exact ⟨rfl, by omega, digits⟩
    | exact ⟨rfl, by omega, asNumber⟩

/-- The stored text of a scalar that fits casts to the value that was stored. -/
theorem cast_stored (toShortestFloat : ShortestFloat) {type : ScalarType} {default : Option Scalar} {value : Scalar}
    (held : type.holds value = true) (cast : hasCast type default = true) (fits : castable type (some value) = true) :
    (textOf (some (scalarJson toShortestFloat type value))).cast (sqlType type) =
      .ok (literal (stored toShortestFloat type value)) := by
  cases value with
  | bool flag =>
      have isBool : type = .bool := by simpa [ScalarType.holds] using held
      subst isBool
      rfl
  | string text =>
      have isString : type = .string := by simpa [ScalarType.holds] using held
      subst isString
      rfl
  | bytes base64 =>
      have isBytes : type = .bytes := by simpa [ScalarType.holds] using held
      subst isBytes
      cases cast
  | float number =>
      have isFloat : type = .double ∨ type = .float := by simpa [ScalarType.holds] using held
      cases number with
      | infinity negative => cases isFloat with
        | inl double => subst double; cases fits
        | inr float => subst float; cases fits
      | nan => cases isFloat with
        | inl double => subst double; rfl
        | inr float => subst float; rfl
      | finite value => cases isFloat with
        | inl double => subst double; rfl
        | inr float => subst float; rfl
  | int number =>
      have notEnum : type.isEnum = false := by
        cases type with
        | enum values => cases fits
        | _ => rfl
      obtain ⟨isBigint, least, casts⟩ := @cast_integer toShortestFloat _ _ held notEnum
      have greatest : number < 2 ^ 63 := by
        cases type with
        | enum values => cases fits
        | _ => simpa [castable] using fits
      rw [isBigint, casts, toBigint_of_fits least greatest]
      rfl

theorem identifier_refused {name : String} (identifier : isIdentifier name = true) :
    (SqlValue.text name).cast .bigint = .error .invalidText := by
  have unread : readInteger name = none := by
    unfold isIdentifier at identifier
    split at identifier
    · next first rest spelled =>
        have member : first ∈ name.toList := by rw [spelled]; exact List.mem_cons_self
        rw [Bool.or_eq_true, decide_eq_true_eq] at identifier
        cases identifier with
        | inr underscore =>
            exact readInteger_none member (by rw [underscore]; rfl) (by rw [underscore]; decide)
        | inl letter =>
            refine readInteger_none member ?_ ?_
            · change (decide (first.val ≥ 'A'.val ∧ first.val ≤ 'Z'.val) ||
                (decide (first.val ≥ 'a'.val) && decide (first.val ≤ 'z'.val))) = true at letter
              simp only [Bool.or_eq_true, Bool.and_eq_true, decide_eq_true_eq, UInt32.le_iff_toNat_le,
                ge_iff_le] at letter
              simp only [Char.isDigit, Bool.and_eq_false_iff, decide_eq_false_iff_not, UInt32.le_iff_toNat_le,
                ge_iff_le]
              have upper : 'A'.val.toNat = 65 := rfl
              have nine : '9'.val.toNat = 57 := rfl
              have lower : 'a'.val.toNat = 97 := rfl
              omega
            · intro minus
              rw [minus] at letter
              exact absurd letter (by decide)
    · cases identifier
  rw [cast_text_bigint, unread]

theorem infinity_refused (negative : Bool) :
    (SqlValue.text (if negative then "-Infinity" else "Infinity")).cast .numeric = .error .invalidText := by
  have unread : ∀ text : String, text ≠ "NaN" → 'I' ∈ text.toList →
      (SqlValue.text text).cast .numeric = .error .invalidText := by
    intro text notNan member
    exact cast_text_numeric_none notNan (readInteger_none member (by decide) (by decide))
  cases negative with
  | true => exact unread "-Infinity" (by decide) (by decide)
  | false => exact unread "Infinity" (by decide) (by decide)

/-- The stored text of a scalar that does not fit is refused by the cast. -/
theorem cast_refused (toShortestFloat : ShortestFloat) {type : ScalarType} {default : Option Scalar} {value : Scalar}
    (held : type.holds value = true) (named : (Kind.scalar type default).Named)
    (unfit : castable type (some value) = false) :
    ∃ failure, (textOf (some (scalarJson toShortestFloat type value))).cast (sqlType type) = .error failure := by
  cases value with
  | bool flag =>
      have isBool : type = .bool := by simpa [ScalarType.holds] using held
      subst isBool
      cases unfit
  | string text =>
      have isString : type = .string := by simpa [ScalarType.holds] using held
      subst isString
      cases unfit
  | bytes base64 =>
      have isBytes : type = .bytes := by simpa [ScalarType.holds] using held
      subst isBytes
      cases unfit
  | float number =>
      have isFloat : type = .double ∨ type = .float := by simpa [ScalarType.holds] using held
      cases number with
      | infinity negative => cases isFloat with
        | inl double => subst double; exact ⟨_, infinity_refused negative⟩
        | inr float => subst float; exact ⟨_, infinity_refused negative⟩
      | nan => cases isFloat with
        | inl double => subst double; cases unfit
        | inr float => subst float; cases unfit
      | finite value => cases isFloat with
        | inl double => subst double; cases unfit
        | inr float => subst float; cases unfit
  | int number =>
      by_cases isEnum : type.isEnum = true
      · cases type with
        | enum values =>
            have listed : number ∈ values.map Prod.snd := by simpa [ScalarType.holds, ScalarType.holdsInt] using held
            cases found : values.find? fun member => member.2 = number with
            | none =>
                obtain ⟨member, inValues, isNumber⟩ := List.mem_map.mp listed
                have missed := List.find?_eq_none.mp found member inValues
                simp [isNumber] at missed
            | some member =>
                have identifier := named values default rfl member (List.mem_of_find?_eq_some found)
                refine ⟨.invalidText, ?_⟩
                simp only [scalarJson, found, Option.map_some, Option.getD_some]
                exact identifier_refused identifier
        | _ => cases isEnum
      · have notEnum : type.isEnum = false := by simpa using isEnum
        have large : 2 ^ 63 ≤ number := by
          cases type with
          | enum values => cases notEnum
          | _ => simpa [castable] using unfit
        obtain ⟨isBigint, _, casts⟩ := @cast_integer toShortestFloat _ _ held notEnum
        refine ⟨.outOfRange, ?_⟩
        rw [isBigint, casts, toBigint_of_large large]

/-! ### Comparisons -/

/-- What SQL reads of a scalar. -/
def sqlScalar (toShortestFloat : ShortestFloat) (type : ScalarType) (default value : Option Scalar) : Scalar :=
  (value.map (stored toShortestFloat type)).getD (readScalar type default none)

/-- A text with a null character cannot be sent. -/
def sendable : Scalar → Bool
  | .string text => !hasNull text
  | .bytes base64 => !hasNull base64
  | _ => true

/-- Where NaN is the greatest number and equal to itself, and where a number is compared as what is stored of it. -/
def floatsAlike (operator : Operator) (held read constant : FloatValue) : Prop :=
  match held, constant with
  | .nan, .nan => operator = .lt ∨ operator = .gt
  | .nan, _ => operator ≠ .gt ∧ operator ≠ .ge
  | _, .nan => operator ≠ .lt ∧ operator ≠ .le
  | held, constant => operator.holds (held.order constant) = operator.holds (read.order constant)

/-- No order of booleans; strings in the order of their code points; numbers that compare as they are stored. -/
def comparesAlike (before : Collation) (operator : Operator) : Scalar → Scalar → Scalar → Prop
  | _, .bool _, _ => operator.isOrder = false
  | _, .string read, .string constant =>
      operator.isOrder = true → read ≠ constant → (before read constant = true ↔ read < constant)
  | .float held, .float read, .float constant => floatsAlike operator held read constant
  | _, _, _ => True

inductive ScalarKind where
  | bool
  | int
  | float
  | string
  | bytes

def kindOf : Scalar → ScalarKind
  | .bool _ => .bool
  | .int _ => .int
  | .float _ => .float
  | .string _ => .string
  | .bytes _ => .bytes

def kindOfType : ScalarType → ScalarKind
  | .bool => .bool
  | .double | .float => .float
  | .string => .string
  | .bytes => .bytes
  | _ => .int

theorem kind_of_holds {type : ScalarType} {value : Scalar} (held : type.holds value = true) :
    kindOf value = kindOfType type := by
  cases value with
  | int number => cases type <;> first | rfl | cases held
  | bool flag => cases type <;> first | rfl | cases held
  | float number => cases type <;> first | rfl | cases held
  | string text => cases type <;> first | rfl | cases held
  | bytes base64 => cases type <;> first | rfl | cases held

theorem kind_stored (toShortestFloat : ShortestFloat) (type : ScalarType) (value : Scalar) :
    kindOf (stored toShortestFloat type value) = kindOf value := by
  cases value with
  | float number => cases number <;> rfl
  | _ => rfl

theorem kind_default {type : ScalarType} {default : Option Scalar}
    (typed : ∀ explicit, default = some explicit → type.holds explicit = true) :
    kindOf (readScalar type default none) = kindOfType type := by
  cases default with
  | some explicit => exact kind_of_holds (typed explicit rfl)
  | none => cases type <;> rfl

theorem kind_readScalar {type : ScalarType} {default value : Option Scalar}
    (fits : ∀ held, value = some held → type.holds held = true)
    (typed : ∀ explicit, default = some explicit → type.holds explicit = true) :
    kindOf (readScalar type default value) = kindOfType type := by
  cases value with
  | none => exact kind_default typed
  | some held => exact kind_of_holds (fits held rfl)

theorem kind_sqlScalar (toShortestFloat : ShortestFloat) {type : ScalarType} {default value : Option Scalar}
    (fits : ∀ held, value = some held → type.holds held = true)
    (typed : ∀ explicit, default = some explicit → type.holds explicit = true) :
    kindOf (sqlScalar toShortestFloat type default value) = kindOfType type := by
  cases value with
  | none => exact kind_default typed
  | some held => exact (kind_stored toShortestFloat type held).trans (kind_of_holds (fits held rfl))

theorem floatOrder_of_numbers {held constant : FloatValue} (heldNumber : held ≠ .nan) (isNumber : constant ≠ .nan) :
    some (floatOrder held constant) = held.order constant := by
  cases held with
  | nan => exact absurd rfl heldNumber
  | finite value => cases constant with
    | nan => exact absurd rfl isNumber
    | finite other => rfl
    | infinity negative => rfl
  | infinity negative => cases constant with
    | nan => exact absurd rfl isNumber
    | finite other => rfl
    | infinity other => rfl

theorem floats_iff (operator : Operator) {held read constant : FloatValue} (sameNan : held = .nan ↔ read = .nan) :
    operator.holds (some (floatOrder held constant)) = operator.holds (read.order constant) ↔
      floatsAlike operator held read constant := by
  by_cases heldNan : held = .nan
  · have readNan := sameNan.mp heldNan
    subst heldNan readNan
    cases constant with
    | nan => cases operator <;> simp [floatOrder, FloatValue.order, floatsAlike, Operator.holds]
    | finite other => cases operator <;> simp [floatOrder, FloatValue.order, floatsAlike, Operator.holds]
    | infinity other => cases operator <;> simp [floatOrder, FloatValue.order, floatsAlike, Operator.holds]
  · by_cases constantNan : constant = .nan
    · subst constantNan
      cases held with
      | nan => exact absurd rfl heldNan
      | finite value => cases operator <;> cases read <;>
          simp [floatOrder, FloatValue.order, floatsAlike, Operator.holds]
      | infinity negative => cases operator <;> cases read <;>
          simp [floatOrder, FloatValue.order, floatsAlike, Operator.holds]
    · rw [floatOrder_of_numbers heldNan constantNan]
      cases held with
      | nan => exact absurd rfl heldNan
      | finite value => cases constant with
        | nan => exact absurd rfl constantNan
        | _ => exact Iff.rfl
      | infinity negative => cases constant with
        | nan => exact absurd rfl constantNan
        | _ => exact Iff.rfl

theorem strings_iff (before : Collation) (operator : Operator) (read constant : String) :
    operator.holds (some (if read = constant then .eq else if before read constant then .lt else .gt)) =
        operator.holds (some (orderOf read constant)) ↔
      (operator.isOrder = true → read ≠ constant → (before read constant = true ↔ read < constant)) := by
  unfold Comparison.orderOf
  by_cases same : read = constant
  · subst same
    simp
  · by_cases collated : before read constant = true <;> by_cases ordered : read < constant <;>
      cases operator <;> simp [same, collated, ordered, Operator.holds, Operator.isOrder]

/-- What SQL reads is what Python reads, or both are floating point numbers and NaN is stored as itself. -/
theorem sqlScalar_cases (toShortestFloat : ShortestFloat) (type : ScalarType) (default value : Option Scalar) :
    (∃ held read, sqlScalar toShortestFloat type default value = .float held ∧
        readScalar type default value = .float read ∧ (held = .nan ↔ read = .nan)) ∨
      sqlScalar toShortestFloat type default value = readScalar type default value ∧
        kindOf (readScalar type default value) ≠ .float := by
  cases value with
  | none =>
      change (∃ held read, readScalar type default none = .float held ∧ readScalar type default none = .float read ∧ _) ∨
        (readScalar type default none = readScalar type default none ∧ _)
      cases read : readScalar type default none with
      | float number => exact .inl ⟨number, number, rfl, rfl, Iff.rfl⟩
      | _ => exact .inr ⟨rfl, fun isFloat => nomatch isFloat⟩
  | some held =>
      change (∃ number read, stored toShortestFloat type held = .float number ∧ held = .float read ∧ _) ∨
        (stored toShortestFloat type held = held ∧ kindOf held ≠ .float)
      cases held with
      | float number =>
          cases number with
          | finite number => exact .inl ⟨_, _, rfl, rfl, by simp⟩
          | nan => exact .inl ⟨_, _, rfl, rfl, Iff.rfl⟩
          | infinity negative => exact .inl ⟨_, _, rfl, rfl, Iff.rfl⟩
      | _ => exact .inr ⟨rfl, fun isFloat => nomatch isFloat⟩

/-- SQL orders what it reads as Python does, exactly where the comparison is alike. -/
theorem compares_iff (before : Collation) (operator : Operator) (toShortestFloat : ShortestFloat) {type : ScalarType}
    {default value : Option Scalar} {constant : Scalar} (cast : hasCast type default = true)
    (fits : ∀ held, value = some held → type.holds held = true)
    (typed : ∀ explicit, default = some explicit → type.holds explicit = true)
    (constantTyped : kindOf constant = kindOfType type)
    (unordered : ∀ flag, constant = .bool flag → operator.isOrder = false) :
    operator.holds ((literal (sqlScalar toShortestFloat type default value)).order before (literal constant)) =
        operator.holds (pythonOrder (readScalar type default value) constant) ↔
      comparesAlike before operator (sqlScalar toShortestFloat type default value) (readScalar type default value)
        constant := by
  have readTyped := kind_readScalar fits typed
  have same := readTyped.trans constantTyped.symm
  have notBytes : kindOfType type ≠ .bytes := by
    intro isBytes
    cases type <;> cases isBytes
    cases cast
  rcases sqlScalar_cases toShortestFloat type default value with ⟨held, read, isHeld, isRead, sameNan⟩ |
    ⟨isSame, notFloat⟩
  · rw [isRead] at same
    rw [isHeld, isRead]
    cases constant with
    | float number => exact floats_iff operator sameNan
    | _ => cases same
  · rw [isSame]
    rw [← readTyped] at notBytes
    generalize readScalar type default value = read at same notFloat notBytes
    cases read with
    | float number => exact absurd rfl notFloat
    | bytes base64 => exact absurd rfl notBytes
    | bool flag => cases constant with
      | bool other => exact ⟨fun _ => unordered other rfl, fun _ => rfl⟩
      | _ => cases same
    | int number => cases constant with
      | int other => exact ⟨fun _ => trivial, fun _ => rfl⟩
      | _ => cases same
    | string text => cases constant with
      | string other => exact strings_iff before operator text other
      | _ => cases same

end Zigopt.Db
