/-
Module: Zigopt.Lib.Sql
Layer: Lib
Purpose: SQL expressions over a column of JSON documents, as Postgres evaluates them: items of a document and their
  text, casts of that text, defaults for NULL, comparisons, and the errors that stop a statement.
Main exports: SqlType, SqlValue, SqlError, JsonIndex, documentItem, textOf, SqlValue.cast, SqlValue.order, Clause,
  Clause.eval, Clause.Fails
-/
import Zigopt.Lib.Comparison
import Zigopt.Lib.Json
import Std.Data.String.ToInt

namespace Sql

open Comparison

/-- The types that a clause casts to. -/
inductive SqlType where
  | text
  | boolean
  | numeric
  | bigint
  deriving DecidableEq, Repr

/-- A value; the text of a number or of a boolean of a document is kept as the document. -/
inductive SqlValue where
  | null
  | jsonb (document : Json)
  | text (text : String)
  | jsonText (scalar : Json)
  | boolean (value : Bool)
  | integer (value : ℤ)
  | numeric (value : FloatValue)
  deriving Repr

/-- The refusals of a cast or an operator. -/
inductive SqlError where
  | invalidText
  | outOfRange
  | undefinedOperator
  deriving DecidableEq, Repr

/-- What comes after `->` and `->>`. -/
inductive JsonIndex where
  | name (key : String)
  | position (position : ℤ)
  | boolean (value : Bool)
  deriving DecidableEq, Repr

/-- When a string of the collation comes before another. -/
abbrev Collation := String → String → Bool

def hasNull (text : String) : Bool :=
  text.toList.any fun character => character = '\x00'

/-- The null character is in no text, and nothing is at a boolean. -/
def JsonIndex.check : JsonIndex → Except SqlError Unit
  | .name key => if hasNull key then .error .invalidText else .ok ()
  | .position _ => .ok ()
  | .boolean _ => .error .undefinedOperator

/-- The `->` operator: a name in an object, a position in an array, and otherwise nothing. -/
def documentItem : Json → JsonIndex → Option Json
  | .object members, .name key => members.lookup key
  | .array items, .position position => atIndex items position
  | _, _ => none

/-- `->`, of which NULL is nothing found. -/
def itemOf : Option Json → SqlValue
  | none => .null
  | some document => .jsonb document

/-- `->>`, whose text of a null is NULL. -/
def textOf : Option Json → SqlValue
  | none | some .null => .null
  | some (.string text) => .text text
  | some document => .jsonText document

/-- An integer in digits, after a minus if it is negative. -/
def readInteger (text : String) : Option ℤ :=
  if text.toList.all fun character => character.isDigit || character = '-' then text.toInt? else none

def toBigint (value : ℤ) : Except SqlError SqlValue :=
  if -2 ^ 63 ≤ value ∧ value < 2 ^ 63 then .ok (.integer value) else .error .outOfRange

namespace SqlValue

/-- A cast of a text; this numeric has a NaN and no infinities. -/
def cast : SqlValue → SqlType → Except SqlError SqlValue
  | .null, _ => .ok .null
  | .text content, .text => .ok (.text content)
  | .jsonText scalar, .text => .ok (.jsonText scalar)
  | .text content, .boolean =>
      if content = "true" then .ok (.boolean true)
      else if content = "false" then .ok (.boolean false)
      else .error .invalidText
  | .jsonText (.boolean value), .boolean => .ok (.boolean value)
  | .text content, .bigint =>
      match readInteger content with
      | some value => toBigint value
      | none => .error .invalidText
  | .jsonText (.number value), .bigint => if value.den = 1 then toBigint value.num else .error .invalidText
  | .text content, .numeric =>
      if content = "NaN" then .ok (.numeric .nan)
      else
        match readInteger content with
        | some value => .ok (.numeric (.finite value))
        | none => .error .invalidText
  | .jsonText (.number value), .numeric => .ok (.numeric (.finite value))
  | _, _ => .error .invalidText

end SqlValue

/-- NaN is equal to itself and greater than every number. -/
def floatOrder : FloatValue → FloatValue → Ordering
  | .nan, .nan => .eq
  | .nan, _ => .gt
  | _, .nan => .lt
  | first, second => (first.order second).getD .eq

namespace SqlValue

/-- The order of two values of one type; text follows the collation, with equality byte by byte. -/
def order (before : Collation) : SqlValue → SqlValue → Option Ordering
  | .boolean first, .boolean second => some (orderOf first.toNat second.toNat)
  | .integer first, .integer second => some (orderOf first second)
  | .numeric first, .numeric second => some (floatOrder first second)
  | .text first, .text second =>
      some (if first = second then .eq else if before first second then .lt else .gt)
  | _, _ => none

/-- SQL's comparison: null with anything is null. -/
def compare (before : Collation) (operator : Operator) : SqlValue → SqlValue → Except SqlError SqlValue
  | .null, _ => .ok .null
  | _, .null => .ok .null
  | first, second =>
      match first.order before second with
      | some ordering => .ok (.boolean (operator.holds (some ordering)))
      | none => .error .undefinedOperator

/-- SQL's negation. -/
def not : SqlValue → Except SqlError SqlValue
  | .null => .ok .null
  | .boolean value => .ok (.boolean !value)
  | _ => .error .undefinedOperator

/-- The `->` operator on a value, null where nothing is there. -/
def item : SqlValue → JsonIndex → Except SqlError SqlValue
  | .null, _ => .ok .null
  | .jsonb document, index => .ok (itemOf (documentItem document index))
  | _, _ => .error .undefinedOperator

def itemText : SqlValue → JsonIndex → Except SqlError SqlValue
  | .null, _ => .ok .null
  | .jsonb document, index => .ok (textOf (documentItem document index))
  | _, _ => .error .undefinedOperator

def isNull : SqlValue → Bool
  | .null => true
  | _ => false

end SqlValue

/-- Expressions over one column. -/
inductive Clause where
  | column
  | constant (value : SqlValue)
  | getItem (parent : Clause) (index : JsonIndex)
  | getText (parent : Clause) (index : JsonIndex)
  | cast (clause : Clause) (type : SqlType)
  | coalesce (clause : Clause) (default : Clause)
  | compare (operator : Operator) (left : Clause) (right : Clause)
  | not (clause : Clause)
  | isNotNull (clause : Clause)
  deriving Repr

namespace Clause

/-- The value of an expression where the column holds the document. -/
def eval (before : Collation) (document : Json) : Clause → Except SqlError SqlValue
  | .column => .ok (.jsonb document)
  | .constant (.text text) => if hasNull text then .error .invalidText else .ok (.text text)
  | .constant value => .ok value
  | .getItem parent index => do
      index.check
      (← parent.eval before document).item index
  | .getText parent index => do
      index.check
      (← parent.eval before document).itemText index
  | .cast clause type => do (← clause.eval before document).cast type
  | .coalesce clause default => do
      let value ← clause.eval before document
      let otherwise ← default.eval before document
      .ok (if value.isNull then otherwise else value)
  | .compare operator left right => do
      let first ← left.eval before document
      let second ← right.eval before document
      first.compare before operator second
  | .not clause => do (← clause.eval before document).not
  | .isNotNull clause => do .ok (.boolean !(← clause.eval before document).isNull)

section Equations

variable (before : Collation) (document : Json)

theorem eval_jsonb_eq (content : Json) :
    (Clause.constant (.jsonb content)).eval before document = .ok (.jsonb content) :=
  rfl

theorem eval_getItem_eq (parent : Clause) (index : JsonIndex) : (Clause.getItem parent index).eval before document =
    (do index.check; (← parent.eval before document).item index) :=
  rfl

theorem eval_getText_eq (parent : Clause) (index : JsonIndex) : (Clause.getText parent index).eval before document =
    (do index.check; (← parent.eval before document).itemText index) :=
  rfl

theorem eval_cast_eq (clause : Clause) (type : SqlType) : (Clause.cast clause type).eval before document =
    (do (← clause.eval before document).cast type) :=
  rfl

theorem eval_coalesce_eq (clause default : Clause) : (Clause.coalesce clause default).eval before document =
    (do let value ← clause.eval before document
        let otherwise ← default.eval before document
        .ok (if value.isNull then otherwise else value)) :=
  rfl

theorem eval_compare_eq (operator : Operator) (left right : Clause) :
    (Clause.compare operator left right).eval before document =
      (do let first ← left.eval before document
          let second ← right.eval before document
          first.compare before operator second) :=
  rfl

theorem eval_not_eq (clause : Clause) : (Clause.not clause).eval before document =
    (do (← clause.eval before document).not) :=
  rfl

theorem eval_isNotNull_eq (clause : Clause) : (Clause.isNotNull clause).eval before document =
    (do .ok (.boolean !(← clause.eval before document).isNull)) :=
  rfl

end Equations

end Clause

/-! ### Reading integers -/

/-- An integer is written with digits and a minus. -/
theorem isDigit_or_minus_of_mem_repr {value : ℤ} {character : Char} (member : character ∈ value.repr.toList) :
    character.isDigit = true ∨ character = '-' := by
  cases value with
  | ofNat size =>
      left
      exact Nat.isDigit_of_mem_toDigits (b := 10) (n := size) (by decide) (by decide)
        (by simpa [Int.repr, Nat.repr] using member)
  | negSucc size =>
      have either : character = '-' ∨ character ∈ Nat.toDigits 10 (size + 1) := by
        simpa [Int.repr, Nat.repr, String.toList_append] using member
      cases either with
      | inl minus => exact .inr minus
      | inr digit => exact .inl (Nat.isDigit_of_mem_toDigits (by decide) (by decide) digit)

theorem readInteger_repr (value : ℤ) : readInteger value.repr = some value := by
  have fits : (value.repr.toList.all fun character => character.isDigit || character = '-') = true := by
    rw [List.all_eq_true]
    intro character member
    simpa using isDigit_or_minus_of_mem_repr member
  unfold readInteger
  rw [if_pos fits, Int.toInt?_repr]

/-- A text with a character that is in no integer. -/
theorem readInteger_none {text : String} {character : Char} (member : character ∈ text.toList)
    (notDigit : character.isDigit = false) (notMinus : character ≠ '-') : readInteger text = none := by
  have stops : ¬(text.toList.all fun character => character.isDigit || character = '-') = true := by
    rw [List.all_eq_true]
    intro every
    have supposed := every character member
    rw [notDigit, decide_eq_false notMinus] at supposed
    cases supposed
  unfold readInteger
  rw [if_neg stops]

/-- A text is cast to an integer by being read. -/
theorem cast_text_bigint (content : String) :
    (SqlValue.text content).cast .bigint =
      match readInteger content with
      | some value => toBigint value
      | none => .error .invalidText := rfl

/-- No text but the name of NaN and the digits of integers is a number. -/
theorem cast_text_numeric_none {content : String} (notNan : content ≠ "NaN") (unread : readInteger content = none) :
    (SqlValue.text content).cast .numeric = .error .invalidText := by
  refine (if_neg notNan).trans ?_
  rw [unread]

theorem toBigint_of_fits {value : ℤ} (least : -2 ^ 63 ≤ value) (greatest : value < 2 ^ 63) :
    toBigint value = .ok (.integer value) := by
  unfold toBigint
  rw [if_pos ⟨least, greatest⟩]

theorem toBigint_of_large {value : ℤ} (large : 2 ^ 63 ≤ value) : toBigint value = .error .outOfRange := by
  unfold toBigint
  rw [if_neg fun within => absurd within.2 (not_lt.mpr large)]

/-! ### Items of a document -/

theorem check_name {key : String} (plain : hasNull key = false) : (JsonIndex.name key).check = .ok () := by
  simp [JsonIndex.check, plain]

theorem check_name_refused {key : String} (held : hasNull key = true) :
    (JsonIndex.name key).check = .error .invalidText := by
  simp [JsonIndex.check, held]

section Items

variable {before : Collation} {document : Json}

namespace Clause

theorem eval_getItem {parent : Clause} {index : JsonIndex} {content : Option Json} {default : Json}
    (reads : parent.eval before document = .ok (itemOf content)) (checked : index.check = .ok ())
    (empty : documentItem default index = none) :
    (Clause.getItem parent index).eval before document = .ok (itemOf (documentItem (content.getD default) index)) := by
  simp only [eval_getItem_eq, reads, checked]
  cases content with
  | none =>
      rw [Option.getD_none, empty]
      rfl
  | some value => rfl

/-- The text is read through the default of the parent. -/
theorem eval_getText {parent : Clause} {index : JsonIndex} {content : Option Json} {default : Json}
    (reads : parent.eval before document = .ok (itemOf content)) (checked : index.check = .ok ()) :
    (Clause.getText (.coalesce parent (.constant (.jsonb default))) index).eval before document =
      .ok (textOf (documentItem (content.getD default) index)) := by
  simp only [eval_getText_eq, eval_coalesce_eq, eval_jsonb_eq, reads, checked]
  cases content with
  | none => rfl
  | some value => rfl

/-- The statement stops with an error. -/
def Fails (before : Collation) (document : Json) (clause : Clause) : Prop :=
  ∃ failure, clause.eval before document = .error failure

theorem fails_getItem_of_check {parent : Clause} {index : JsonIndex} {failure : SqlError}
    (refused : index.check = .error failure) : (Clause.getItem parent index).Fails before document := by
  refine ⟨failure, ?_⟩
  simp only [eval_getItem_eq, refused]
  rfl

theorem fails_getText_of_check {parent : Clause} {index : JsonIndex} {failure : SqlError}
    (refused : index.check = .error failure) : (Clause.getText parent index).Fails before document := by
  refine ⟨failure, ?_⟩
  simp only [eval_getText_eq, refused]
  rfl

theorem Fails.getItem {parent : Clause} (failed : parent.Fails before document) (index : JsonIndex) :
    (Clause.getItem parent index).Fails before document := by
  obtain ⟨failure, raised⟩ := failed
  cases checked : index.check with
  | error other => exact fails_getItem_of_check checked
  | ok done =>
      refine ⟨failure, ?_⟩
      simp only [eval_getItem_eq, raised, checked]
      rfl

theorem Fails.getText {parent : Clause} (failed : parent.Fails before document) (index : JsonIndex) :
    (Clause.getText parent index).Fails before document := by
  obtain ⟨failure, raised⟩ := failed
  cases checked : index.check with
  | error other => exact fails_getText_of_check checked
  | ok done =>
      refine ⟨failure, ?_⟩
      simp only [eval_getText_eq, raised, checked]
      rfl

/-- A coalesce fails with its first part. -/
theorem Fails.coalesce {clause : Clause} (failed : clause.Fails before document) (default : Clause) :
    (Clause.coalesce clause default).Fails before document := by
  obtain ⟨failure, raised⟩ := failed
  refine ⟨failure, ?_⟩
  simp only [eval_coalesce_eq, raised]
  rfl

/-- A cast of what fails, fails. -/
theorem Fails.cast {clause : Clause} (failed : clause.Fails before document) (type : SqlType) :
    (Clause.cast clause type).Fails before document := by
  obtain ⟨failure, raised⟩ := failed
  refine ⟨failure, ?_⟩
  simp only [eval_cast_eq, raised]
  rfl

theorem Fails.compare {left : Clause} (failed : left.Fails before document) (operator : Operator) (right : Clause) :
    (Clause.compare operator left right).Fails before document := by
  obtain ⟨failure, raised⟩ := failed
  refine ⟨failure, ?_⟩
  simp only [eval_compare_eq, raised]
  rfl

/-- A coalesce fails with its default. -/
theorem Fails.default {default : Clause} (failed : default.Fails before document) (clause : Clause) :
    (Clause.coalesce clause default).Fails before document := by
  obtain ⟨failure, raised⟩ := failed
  cases evaluated : clause.eval before document with
  | error other => exact Fails.coalesce ⟨other, evaluated⟩ default
  | ok value =>
      refine ⟨failure, ?_⟩
      simp only [eval_coalesce_eq, raised, evaluated]
      rfl

theorem Fails.compared {right : Clause} (failed : right.Fails before document) (operator : Operator) (left : Clause) :
    (Clause.compare operator left right).Fails before document := by
  obtain ⟨failure, raised⟩ := failed
  cases evaluated : left.eval before document with
  | error other => exact Fails.compare ⟨other, evaluated⟩ operator right
  | ok value =>
      refine ⟨failure, ?_⟩
      simp only [eval_compare_eq, raised, evaluated]
      rfl

theorem Fails.not_ok {clause : Clause} (failed : clause.Fails before document) (value : SqlValue) :
    clause.eval before document ≠ .ok value := by
  obtain ⟨failure, raised⟩ := failed
  rw [raised]
  intro same
  cases same

/-- A negation of what fails, fails. -/
theorem Fails.not {clause : Clause} (failed : clause.Fails before document) :
    (Clause.not clause).Fails before document := by
  obtain ⟨failure, raised⟩ := failed
  refine ⟨failure, ?_⟩
  simp only [eval_not_eq, raised]
  rfl

/-- Asking whether a failing clause is null fails. -/
theorem Fails.isNotNull {clause : Clause} (failed : clause.Fails before document) :
    (Clause.isNotNull clause).Fails before document := by
  obtain ⟨failure, raised⟩ := failed
  refine ⟨failure, ?_⟩
  simp only [eval_isNotNull_eq, raised]
  rfl

end Clause

end Items

end Sql
