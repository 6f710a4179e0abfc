/-
Module: Zigopt.Lib.DecimalNumerals
Layer: Lib
Purpose: Numbers as decimal numerals without an exponent, which are read back, and names in ASCII: a reading of Python
  literals that can be run.
Main exports: PythonLiteral.asciiNames, PythonLiteral.decimalText, PythonLiteral.readDecimal,
  PythonLiteral.decimalNumerals
-/
import Mathlib.Data.Rat.Lemmas
import Mathlib.Tactic.NormNum
import Mathlib.Tactic.Positivity
import Zigopt.Lib.PythonLiteral

namespace PythonLiteral

/-- No character beyond ASCII is in a name. -/
def asciiNames : Names where
  start _ := false
  continues _ := false
  normal := id

/-- How many places a fraction has, if it is a decimal one. -/
def places (denominator : ℕ) : Option ℕ :=
  (List.range (denominator.log2 + 1)).find? fun count => denominator ∣ 10 ^ count

/-- At least one digit is left of the point. -/
def withPoint (digits : List Char) (count : ℕ) : List Char :=
  let padded := List.replicate (count + 1 - digits.length) '0' ++ digits
  padded.take (padded.length - count) ++ '.' :: padded.drop (padded.length - count)

/-- All digits of a decimal fraction. What is none (and no double is such a number) gets a text with two points, which
    is no numeral. -/
def fractionText (numerator denominator : ℕ) : List Char :=
  match places denominator with
  | some count =>
      if count = 0 then Nat.toDigits 10 numerator
      else withPoint (Nat.toDigits 10 (numerator * (10 ^ count / denominator))) count
  | none => Nat.toDigits 10 numerator ++ '.' :: '.' :: Nat.toDigits 10 denominator

/-- The numeral of a rational, with a sign where it is negative. -/
def decimalText (value : ℚ) : List Char :=
  if value < 0 then '-' :: fractionText value.num.natAbs value.den else fractionText value.num.natAbs value.den

def readFraction (text : List Char) : Option ℚ :=
  let whole := text.takeWhile Char.isDigit
  match text.dropWhile Char.isDigit with
  | [] => some (Nat.ofDigitChars 10 whole 0 : ℕ)
  | point :: fraction =>
      if point = '.' ∧ fraction.all Char.isDigit = true then
        some ((Nat.ofDigitChars 10 (whole ++ fraction) 0 : ℕ) / 10 ^ fraction.length)
      else if point = '.' ∧ fraction.head? = some '.' then
        some ((Nat.ofDigitChars 10 whole 0 : ℕ) / (Nat.ofDigitChars 10 fraction.tail 0 : ℕ))
      else none

/-- The rational that a decimal text stands for. -/
def readDecimal : List Char → Option ℚ
  | '-' :: text => (readFraction text).map fun value => -value
  | text => readFraction text

section Decimals

theorem places_eq_some {denominator count : ℕ} (isCount : places denominator = some count) :
    denominator ∣ 10 ^ count := by
  have divides := List.find?_some isCount
  exact of_decide_eq_true divides

theorem toDigits_all (number : ℕ) : ∀ character ∈ Nat.toDigits 10 number, character.isDigit = true :=
  fun _ member => Nat.isDigit_of_mem_toDigits (by decide) (by decide) member

/-- The digits up to a character that is none. -/
theorem takeWhile_digits {whole : List Char} (rest : List Char) (all : ∀ character ∈ whole, character.isDigit = true) :
    (whole ++ '.' :: rest).takeWhile Char.isDigit = whole ∧
      (whole ++ '.' :: rest).dropWhile Char.isDigit = '.' :: rest := by
  have point : ¬('.' : Char).isDigit = true := by decide
  constructor
  · rw [List.takeWhile_append_of_pos all, List.takeWhile_cons_of_neg point, List.append_nil]
  · rw [List.dropWhile_append_of_pos all, List.dropWhile_cons_of_neg point]

/-- The zeros that are put before the digits change nothing. -/
theorem padded_facts (number count : ℕ) :
    let padded := List.replicate (count + 1 - (Nat.toDigits 10 number).length) '0' ++ Nat.toDigits 10 number
    (∀ character ∈ padded, character.isDigit = true) ∧ count < padded.length ∧
      Nat.ofDigitChars 10 padded 0 = number := by
  refine ⟨?_, ?_, ?_⟩
  · intro character member
    cases List.mem_append.mp member with
    | inl isZero =>
        rw [List.eq_of_mem_replicate isZero]
        decide
    | inr isDigit => exact toDigits_all number character isDigit
  · rw [List.length_append, List.length_replicate]
    omega
  · rw [Nat.ofDigitChars_append, Nat.ofDigitChars_replicate_zero, mul_zero, Nat.ofDigitChars_ten_toDigits]

theorem readFraction_withPoint (number count : ℕ) :
    readFraction (withPoint (Nat.toDigits 10 number) count) = some ((number : ℚ) / 10 ^ count) := by
  obtain ⟨areDigits, long, value⟩ := padded_facts number count
  rw [withPoint]
  generalize List.replicate (count + 1 - (Nat.toDigits 10 number).length) '0' ++ Nat.toDigits 10 number = padded
    at areDigits long value ⊢
  have fractionLength : (padded.drop (padded.length - count)).length = count := by
    rw [List.length_drop]
    omega
  obtain ⟨taken, dropped⟩ := takeWhile_digits (padded.drop (padded.length - count))
    fun character member => areDigits character (List.mem_of_mem_take (i := padded.length - count) member)
  have fractionAll : (padded.drop (padded.length - count)).all Char.isDigit = true :=
    List.all_eq_true.mpr fun character member => areDigits character (List.mem_of_mem_drop member)
  rw [readFraction, taken, dropped]
  dsimp only
  rw [if_pos ⟨rfl, fractionAll⟩, List.take_append_drop, value, fractionLength]

theorem readFraction_text {numerator denominator : ℕ} (positive : 0 < denominator) :
    readFraction (fractionText numerator denominator) = some ((numerator : ℚ) / denominator) := by
  have all := toDigits_all numerator
  unfold fractionText
  cases isCount : places denominator with
  | none =>
      obtain ⟨taken, dropped⟩ := takeWhile_digits ('.' :: Nat.toDigits 10 denominator) all
      have notDigits : ¬('.' = '.' ∧ ('.' :: Nat.toDigits 10 denominator).all Char.isDigit = true) := by
        intro both
        exact absurd (List.all_eq_true.mp both.2 '.' List.mem_cons_self) (by decide)
      rw [readFraction, taken, dropped]
      dsimp only
      rw [if_neg notDigits, if_pos ⟨rfl, rfl⟩, List.tail_cons, Nat.ofDigitChars_ten_toDigits,
        Nat.ofDigitChars_ten_toDigits]
  | some count =>
      have divides := places_eq_some isCount
      dsimp only
      split
      · rename_i isZero
        rw [isZero, pow_zero, Nat.dvd_one] at divides
        have noRest : (Nat.toDigits 10 numerator).dropWhile Char.isDigit = [] := List.dropWhile_eq_nil_iff.mpr all
        have allTaken : (Nat.toDigits 10 numerator).takeWhile Char.isDigit = Nat.toDigits 10 numerator :=
          List.takeWhile_eq_self_iff.mpr all
        rw [readFraction, noRest, allTaken, divides, Nat.cast_one, div_one]
        dsimp only
        rw [Nat.ofDigitChars_ten_toDigits]
      · obtain ⟨factor, isFactor⟩ := divides
        have power : (10 : ℚ) ^ count = denominator * factor := by exact_mod_cast isFactor
        have factorNotZero : (factor : ℚ) ≠ 0 := by
          intro isZero
          rw [isZero, mul_zero] at power
          exact absurd power (by positivity)
        rw [readFraction_withPoint, isFactor, Nat.mul_div_cancel_left factor positive, Nat.cast_mul, power,
          mul_div_mul_right _ _ factorNotZero]

/-- A text begins with a digit, and has digits and points after it. -/
theorem fractionText_shape (numerator denominator : ℕ) :
    ∃ first rest, fractionText numerator denominator = first :: rest ∧ first.isDigit = true ∧
      ∀ character ∈ rest, isNumeral character = true := by
  have numeral : ∀ character : Char, character.isDigit = true → isNumeral character = true := by
    intro character isDigit
    rw [isNumeral, isDigit, Bool.true_or]
  have pointed : ∀ whole fraction : List Char, whole ≠ [] → (∀ character ∈ whole, character.isDigit = true) →
      (∀ character ∈ fraction, isNumeral character = true) → ∃ first rest, whole ++ '.' :: fraction = first :: rest ∧
        first.isDigit = true ∧ ∀ character ∈ rest, isNumeral character = true := by
    intro whole fraction notEmpty wholeDigits areNumeral
    cases whole with
    | nil => exact absurd rfl notEmpty
    | cons first digits =>
        refine ⟨first, digits ++ '.' :: fraction, rfl, wholeDigits first List.mem_cons_self, ?_⟩
        intro character member
        rcases List.mem_append.mp member with isDigit | isAfter
        · exact numeral character (wholeDigits character (List.mem_cons_of_mem _ isDigit))
        · rcases List.mem_cons.mp isAfter with rfl | isFraction
          · decide
          · exact areNumeral character isFraction
  unfold fractionText
  split
  · rename_i count _
    split
    · cases isText : Nat.toDigits 10 numerator with
      | nil => exact absurd isText Nat.toDigits_ne_nil
      | cons first rest =>
          have all := toDigits_all numerator
          rw [isText] at all
          exact ⟨first, rest, rfl, all first List.mem_cons_self,
            fun character member => numeral character (all character (List.mem_cons_of_mem _ member))⟩
    · obtain ⟨areDigits, long, _⟩ := padded_facts (numerator * (10 ^ count / denominator)) count
      apply pointed
      · intro isEmpty
        have noLength := congrArg List.length isEmpty
        rw [List.length_take, List.length_nil] at noLength
        omega
      · exact fun character member => areDigits character (List.mem_of_mem_take member)
      · exact fun character member => numeral character (areDigits character (List.mem_of_mem_drop member))
  · apply pointed _ _ Nat.toDigits_ne_nil (toDigits_all numerator)
    intro character member
    rcases List.mem_cons.mp member with rfl | isDigit
    · decide
    · exact numeral character (toDigits_all denominator character isDigit)

theorem readDecimal_text (value : ℚ) : readDecimal (decimalText value) = some value := by
  have read := @readFraction_text value.num.natAbs value.den value.den_pos
  unfold decimalText
  split
  · rename_i negative
    have isNegative : value.num < 0 := Rat.num_neg.mpr negative
    have magnitude : ((value.num.natAbs : ℕ) : ℚ) = -(value.num : ℚ) := by
      rw [← Int.cast_natCast, Int.ofNat_natAbs_of_nonpos isNegative.le, Int.cast_neg]
    rw [readDecimal, read, Option.map_some, magnitude, neg_div, neg_neg, Rat.num_div_den]
  · rename_i notNegative
    have isNonneg : 0 ≤ value.num := Rat.num_nonneg.mpr (not_lt.mp notNegative)
    have magnitude : ((value.num.natAbs : ℕ) : ℚ) = value.num := by
      rw [← Int.cast_natCast, Int.natAbs_of_nonneg isNonneg]
    rw [magnitude, Rat.num_div_den] at read
    obtain ⟨first, rest, isText, isDigit, _⟩ := fractionText_shape value.num.natAbs value.den
    rw [isText] at read ⊢
    rw [readDecimal, read]
    rintro text same
    rw [(List.cons.inj same).1] at isDigit
    exact absurd isDigit (by decide)

end Decimals

/-- Numbers as decimal numerals without an exponent. -/
def decimalNumerals : Numerals where
  text := decimalText
  read := readDecimal
  reads := readDecimal_text
  shape value := by
    obtain ⟨first, rest, isText, isDigit, areNumeral⟩ := fractionText_shape value.num.natAbs value.den
    unfold decimalText
    split
    · refine ⟨'-', first :: rest, by rw [isText], Or.inr rfl, ?_⟩
      intro character member
      rcases List.mem_cons.mp member with rfl | isLater
      · rw [isNumeral, isDigit, Bool.true_or]
      · exact areNumeral character isLater
    · exact ⟨first, rest, isText, Or.inl isDigit, areNumeral⟩

end PythonLiteral
