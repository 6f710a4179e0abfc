/-
Module: Zigopt.Experiment.Names
Layer: Experiment
Purpose: The names a user gives to parameters, conditionals and categorical values, as
  `validate_name_length` stores them.
Main exports: strip, NamedObject, validateNameLength, validateNameLength_eq_ok
-/
import Mathlib.Data.List.DropRight
import Zigopt.Handlers.ValidateDict

namespace Zigopt.Experiment

open Raising

/-- `str.isspace` of one character. -/
def isSpace (character : Char) : Bool :=
  let code := character.toNat
  (9 ≤ code && code ≤ 13) || (28 ≤ code && code ≤ 32) || code == 0x85 || code == 0xa0 || code == 0x1680 ||
    (0x2000 ≤ code && code ≤ 0x200a) || code == 0x2028 || code == 0x2029 || code == 0x202f ||
    code == 0x205f || code == 0x3000

/-- `str.strip`. -/
def strip (text : String) : String :=
  String.ofList ((text.toList.dropWhile isSpace).rdropWhile isSpace)

def hasInvalidChars (text : String) : Bool :=
  text.toList.any fun character => character.toNat < 32

/-- `validate_name` of a string. -/
def validateName (name : String) : Except ValidationError String := do
  raiseIf (name = "") (.invalidValue "Invalid name: cannot be empty")
  raiseIf (hasInvalidChars name) (.invalidValue s!"Invalid name: {name}")
  pure (strip name)

/-- The object types `validate_name_length` recognizes. -/
inductive NamedObject where
  | experiment
  | parameter
  | variable
  | metric
  | categorical
deriving DecidableEq, Repr

namespace NamedObject

def text : NamedObject → String
  | .experiment => "Experiment"
  | .parameter => "Parameter"
  | .variable => "Variable"
  | .metric => "Metric"
  | .categorical => "Categorical"

/-- `CATEGORICAL_VALUE_MAX_LENGTH` and `NAME_MAX_LENGTH`. -/
def maxLength : NamedObject → Nat
  | .categorical => 50
  | _ => 100

end NamedObject

/-- `validate_name_length`, whose length is that of the name without the blanks around it. -/
def validateNameLength (objectType : NamedObject) (rawName : String) : Except ValidationError String := do
  let name ← validateName rawName
  raiseIf (name = "") (.missingParam "names" s!"{objectType.text} names cannot be empty")
  raiseIf (name.length > objectType.maxLength)
    (.sigoptValidation s!"{objectType.text} names must be less than {objectType.maxLength} characters")
  pure name

def validateParameterName (name : String) : Except ValidationError String :=
  validateNameLength .parameter name

def validateCategoricalValue (name : String) : Except ValidationError String :=
  validateNameLength .categorical name

def validateConditionalValue (name : String) : Except ValidationError String :=
  validateCategoricalValue name

theorem dropWhile_rdropWhile_of_head {characters : List Char}
    (trimmed : characters.dropWhile isSpace = characters) :
    (characters.rdropWhile isSpace).dropWhile isSpace = characters.rdropWhile isSpace := by
  rw [List.dropWhile_eq_self_iff] at trimmed ⊢
  intro nonempty
  have isPrefix := List.rdropWhile_prefix isSpace characters
  have headKept := isPrefix.getElem nonempty
  rw [headKept]
  exact trimmed (nonempty.trans_le isPrefix.length_le)

@[simp] theorem strip_strip (text : String) : strip (strip text) = strip text := by
  unfold strip
  rw [String.toList_ofList, dropWhile_rdropWhile_of_head (List.dropWhile_idempotent _ _), List.rdropWhile_idempotent]

/-- What is stored of a name, and when. -/
theorem validateNameLength_eq_ok {objectType : NamedObject} {rawName name : String} :
    validateNameLength objectType rawName = .ok name ↔
      hasInvalidChars rawName = false ∧ strip rawName ≠ "" ∧
        (strip rawName).length ≤ objectType.maxLength ∧ strip rawName = name := by
  unfold validateNameLength validateName
  constructor
  · intro accepted
    simp only [bind_eq_ok, raiseIf_eq_ok, pure_eq_ok] at accepted
    rcases accepted with ⟨stripped, ⟨_, notEmpty, _, noInvalid, rfl⟩, _, notBlank, _, short, rfl⟩
    exact ⟨by simpa using noInvalid, notBlank, by simpa using short, rfl⟩
  · rintro ⟨noInvalid, notBlank, short, rfl⟩
    have notEmpty : rawName ≠ "" := by
      rintro rfl
      exact notBlank (by decide)
    simp [raiseIf, noInvalid, notEmpty, notBlank, Nat.not_lt.mpr short]

theorem hasInvalidChars_strip {text : String} (noInvalid : hasInvalidChars text = false) :
    hasInvalidChars (strip text) = false := by
  unfold hasInvalidChars at noInvalid ⊢
  unfold strip
  rw [List.any_eq_false] at noInvalid ⊢
  intro character member
  rw [String.toList_ofList] at member
  have kept : character ∈ text.toList.dropWhile isSpace := (List.rdropWhile_prefix isSpace _).subset member
  exact noInvalid character ((List.dropWhile_suffix isSpace).subset kept)

/-- A stored name passes its own validation and is stored again as it is. -/
theorem validateNameLength_stored {objectType : NamedObject} {rawName name : String}
    (accepted : validateNameLength objectType rawName = .ok name) :
    validateNameLength objectType name = .ok name := by
  rw [validateNameLength_eq_ok] at accepted
  rcases accepted with ⟨noInvalid, notBlank, short, rfl⟩
  rw [validateNameLength_eq_ok, strip_strip]
  exact ⟨hasInvalidChars_strip noInvalid, notBlank, short, rfl⟩

end Zigopt.Experiment
