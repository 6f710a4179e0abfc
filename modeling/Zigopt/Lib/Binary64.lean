/-
Module: Zigopt.Lib.Binary64
Layer: Lib
Purpose: The finite numbers of the 64-bit floating point format as exact rationals, their words, and rounding to them. A
  number is a significand of 53 bits at a shift above the least exponent; its word names the least shift at which it
  has one.
Main exports: Binary64.IsDouble, Binary64.encode, Binary64.decode, Binary64.decode_encode, Binary64.encode_lt,
  Binary64.round, Binary64.round_mono, Binary64.round_round
-/
import Mathlib.Algebra.Order.Field.Basic
import Mathlib.Algebra.Order.Ring.Abs
import Mathlib.Data.Rat.Cast.Order
import Mathlib.Tactic.FieldSimp
import Mathlib.Tactic.Positivity
import Mathlib.Tactic.Ring
import Zigopt.Lib.Rounding

namespace Binary64

/-- How many units of the least exponent make up one. -/
def scale : ℚ := 2 ^ 1074

theorem scale_pos : 0 < scale := by
  unfold scale
  positivity

/-- The size of a number in units of the least exponent. -/
def units (value : ℚ) : ℚ := |value| * scale

/-- The finite numbers of the format. -/
def IsDouble (value : ℚ) : Prop :=
  ∃ significand shift : ℕ, significand < 2 ^ 53 ∧ shift ≤ 2045 ∧ units value = significand * 2 ^ shift

/-- What a word stands for. -/
inductive Number where
  | finite (value : ℚ)
  | infinite (negative : Bool)
  | nan
deriving DecidableEq, Repr

/-! ### Words -/

def magnitude (exponent fraction : ℕ) : ℕ :=
  if exponent = 0 then fraction else (2 ^ 52 + fraction) * 2 ^ (exponent - 1)

/-- The number that a word stands for: sign, biased exponent, fraction. -/
def decode (word : ℕ) : Number :=
  let negative := word / 2 ^ 63 % 2 = 1
  let exponent := word / 2 ^ 52 % 2 ^ 11
  let fraction := word % 2 ^ 52
  if exponent = 2047 then
    if fraction = 0 then .infinite negative else .nan
  else if negative then .finite (-(magnitude exponent fraction / scale))
  else .finite (magnitude exponent fraction / scale)

def significandAt (value : ℚ) (shift : ℕ) : ℕ := (units value / 2 ^ shift).num.toNat

/-- The number has a significand at the shift. -/
def FitsAt (value : ℚ) (shift : ℕ) : Prop :=
  units value = significandAt value shift * 2 ^ shift ∧ significandAt value shift < 2 ^ 53

instance (value : ℚ) (shift : ℕ) : Decidable (FitsAt value shift) :=
  inferInstanceAs (Decidable (_ ∧ _))

/-- The least shift at which the number has a significand. -/
def shiftOf (value : ℚ) : ℕ := ((List.range 2046).find? fun shift => FitsAt value shift).getD 0

/-- The word of a double, from its sign, exponent and significand. -/
def encode (value : ℚ) : ℕ :=
  (if value < 0 then 2 ^ 63 else 0) + (shiftOf value * 2 ^ 52 + significandAt value (shiftOf value))

/-- The word of an infinity. -/
def infinity (negative : Bool) : ℕ := (if negative then 2 ^ 63 else 0) + 2047 * 2 ^ 52

/-! ### What was written is read -/

variable {value : ℚ}

theorem significandAt_eq {shift significand : ℕ} (sized : units value = significand * 2 ^ shift) :
    significandAt value shift = significand := by
  have whole : units value / 2 ^ shift = (significand : ℤ) := by
    rw [sized, mul_div_cancel_right₀ _ (by positivity), Int.cast_natCast]
  rw [significandAt, whole, Rat.num_intCast, Int.toNat_natCast]

theorem fitsAt_of_sized {shift significand : ℕ} (sized : units value = significand * 2 ^ shift)
    (small : significand < 2 ^ 53) : FitsAt value shift := by
  rw [FitsAt, significandAt_eq sized]
  exact ⟨sized, small⟩

/-- The number has a significand at its shift, of all 53 bits unless the shift is the least one. -/
theorem fitsAt_shiftOf (isDouble : IsDouble value) :
    shiftOf value ≤ 2045 ∧ FitsAt value (shiftOf value) ∧
      (shiftOf value = 0 ∨ 2 ^ 52 ≤ significandAt value (shiftOf value)) := by
  obtain ⟨significand, shift, small, inRange, sized⟩ := isDouble
  have fits := fitsAt_of_sized sized small
  have isSome : ((List.range 2046).find? fun shift => FitsAt value shift).isSome := by
    rw [List.find?_isSome]
    exact ⟨shift, List.mem_range.mpr (by omega), decide_eq_true fits⟩
  obtain ⟨least, found⟩ := Option.isSome_iff_exists.mp isSome
  have isLeast : shiftOf value = least := by rw [shiftOf, found, Option.getD_some]
  obtain ⟨leastFits, member, before⟩ := List.find?_range_eq_some.mp found
  have leastFits := of_decide_eq_true leastFits
  rw [isLeast]
  refine ⟨by have := List.mem_range.mp member; omega, leastFits, ?_⟩
  cases least with
  | zero => exact .inl rfl
  | succ less =>
      right
      by_contra short
      -- a short significand could be doubled, so that the shift would not be the least one
      have doubled : units value = ((2 * significandAt value (less + 1) : ℕ) : ℚ) * 2 ^ less := by
        rw [leastFits.1]
        push_cast
        rw [significandAt_eq leastFits.1]
        ring
      have fitsBefore : FitsAt value less := fitsAt_of_sized doubled (by omega)
      have notBefore := before less (Nat.lt_succ_self less)
      rw [decide_eq_true fitsBefore] at notBefore
      cases notBefore

/-- A double fits 64 bits. -/
theorem encode_lt (isDouble : IsDouble value) : encode value < 2 ^ 64 := by
  obtain ⟨inRange, ⟨_, small⟩, _⟩ := fitsAt_shiftOf isDouble
  unfold encode
  split <;> omega

theorem abs_eq_units : |value| = units value / scale := by
  rw [units, mul_div_cancel_right₀ _ scale_pos.ne']

/-- The fields of a word that is put together from its sign, its shift and its significand. -/
theorem fields_of_word {sign shift significand : ℕ} (isSign : sign ≤ 1) (inRange : shift ≤ 2045)
    (small : significand < 2 ^ 53) (isFull : shift = 0 ∨ 2 ^ 52 ≤ significand) :
    let word := sign * 2 ^ 63 + (shift * 2 ^ 52 + significand)
    word / 2 ^ 63 % 2 = sign ∧ word / 2 ^ 52 % 2 ^ 11 ≠ 2047 ∧
      magnitude (word / 2 ^ 52 % 2 ^ 11) (word % 2 ^ 52) = significand * 2 ^ shift := by
  intro word
  by_cases short : significand < 2 ^ 52
  · have isLeast : shift = 0 := by omega
    subst isLeast
    have exponent : word / 2 ^ 52 % 2 ^ 11 = 0 := by omega
    have fraction : word % 2 ^ 52 = significand := by omega
    refine ⟨by omega, by omega, ?_⟩
    rw [exponent, fraction, magnitude, if_pos rfl, pow_zero, mul_one]
  · have exponent : word / 2 ^ 52 % 2 ^ 11 = shift + 1 := by omega
    have fraction : 2 ^ 52 + word % 2 ^ 52 = significand := by omega
    refine ⟨by omega, by omega, ?_⟩
    rw [exponent, magnitude, if_neg (Nat.succ_ne_zero shift), fraction, Nat.add_sub_cancel]

/-- Every double is read back from its word. -/
theorem decode_encode (isDouble : IsDouble value) : decode (encode value) = .finite value := by
  obtain ⟨inRange, ⟨sized, small⟩, isFull⟩ := fitsAt_shiftOf isDouble
  have size : ((significandAt value (shiftOf value) * 2 ^ shiftOf value : ℕ) : ℚ) / scale = |value| := by
    rw [abs_eq_units, sized]
    push_cast
    rw [significandAt_eq sized]
  by_cases negative : value < 0
  · have isWord : encode value = 1 * 2 ^ 63 + (shiftOf value * 2 ^ 52 + significandAt value (shiftOf value)) := by
      rw [encode, if_pos negative, one_mul]
    obtain ⟨isSign, notInfinite, isMagnitude⟩ := fields_of_word (Nat.le_refl 1) inRange small isFull
    rw [isWord, decode]
    simp only [isSign, isMagnitude, if_neg notInfinite, if_true, size]
    rw [abs_of_neg negative, neg_neg]
  · have isWord : encode value = 0 * 2 ^ 63 + (shiftOf value * 2 ^ 52 + significandAt value (shiftOf value)) := by
      rw [encode, if_neg negative, Nat.zero_mul]
    obtain ⟨isSign, notInfinite, isMagnitude⟩ := fields_of_word (Nat.zero_le 1) inRange small isFull
    rw [isWord, decode]
    simp only [isSign, isMagnitude, if_neg notInfinite, zero_ne_one, if_false, size]
    rw [abs_of_nonneg (not_lt.mp negative)]

theorem decode_infinity (negative : Bool) : decode (infinity negative) = .infinite negative := by
  cases negative <;> decide

/-! ### Rounding -/

/-- The shift at which a size has a significand of 53 bits, or the least one. -/
def roundingShift (size : ℚ) : ℕ := Nat.log2 ⌊size⌋₊ - 52

/-- A size in units, with its significand rounded half to even. -/
def roundUnits (size : ℚ) : ℚ :=
  Rounding.roundHalfEven (size / 2 ^ roundingShift size) * 2 ^ roundingShift size

/-- The number of the format that is nearest to a rational, as for a format without a greatest exponent. -/
def round (value : ℚ) : ℚ :=
  if value < 0 then -(roundUnits (units value) / scale) else roundUnits (units value) / scale

/-- A size that some shift leaves a significand of 53 bits. -/
def Represented (size : ℚ) : Prop := ∃ significand shift : ℕ, significand < 2 ^ 53 ∧ size = significand * 2 ^ shift

theorem IsDouble.represented (isDouble : IsDouble value) : Represented (units value) := by
  obtain ⟨significand, shift, small, _, sized⟩ := isDouble
  exact ⟨significand, shift, small, sized⟩

section Sizes

variable {size first second : ℚ}

theorem roundingShift_mono (inOrder : first ≤ second) : roundingShift first ≤ roundingShift second := by
  have floors : ⌊first⌋₊ ≤ ⌊second⌋₊ := Nat.floor_le_floor inOrder
  unfold roundingShift
  by_cases isZero : ⌊first⌋₊ = 0
  · rw [isZero]
    exact Nat.zero_le _
  · have logs : Nat.log2 ⌊first⌋₊ ≤ Nat.log2 ⌊second⌋₊ := by
      rw [Nat.le_log2 (by omega)]
      exact (Nat.log2_self_le isZero).trans floors
    omega

/-- The significand at the shift has at most 53 bits. -/
theorem size_lt (size : ℚ) : size < 2 ^ 53 * 2 ^ roundingShift size := by
  have whole : ⌊size⌋₊ + 1 ≤ 2 ^ (53 + roundingShift size) := by
    calc ⌊size⌋₊ + 1 ≤ 2 ^ (Nat.log2 ⌊size⌋₊ + 1) := Nat.lt_log2_self
      _ ≤ 2 ^ (53 + roundingShift size) := by
        apply Nat.pow_le_pow_right (by decide)
        unfold roundingShift
        omega
  calc size < ⌊size⌋₊ + 1 := Nat.lt_floor_add_one size
    _ ≤ 2 ^ (53 + roundingShift size) := by exact_mod_cast whole
    _ = 2 ^ 53 * 2 ^ roundingShift size := pow_add 2 53 _

/-- The significand at the shift has all 53 bits unless the shift is the least one. -/
theorem le_size (nonneg : 0 ≤ size) (shifted : 0 < roundingShift size) :
    2 ^ 52 * 2 ^ roundingShift size ≤ size := by
  have notZero : ⌊size⌋₊ ≠ 0 := by
    intro isZero
    rw [roundingShift, isZero] at shifted
    exact absurd shifted (by decide)
  have exponent : Nat.log2 ⌊size⌋₊ = 52 + roundingShift size := by
    unfold roundingShift at shifted ⊢
    omega
  have whole : 2 ^ (52 + roundingShift size) ≤ ⌊size⌋₊ := exponent ▸ Nat.log2_self_le notZero
  calc (2 : ℚ) ^ 52 * 2 ^ roundingShift size = 2 ^ (52 + roundingShift size) := (pow_add 2 52 _).symm
    _ ≤ ⌊size⌋₊ := by exact_mod_cast whole
    _ ≤ size := Nat.floor_le nonneg

/-- The rounded significand, which may have become a power of two. -/
theorem exists_significand (nonneg : 0 ≤ size) :
    ∃ significand : ℕ, significand ≤ 2 ^ 53 ∧ roundUnits size = significand * 2 ^ roundingShift size := by
  have positive : (0 : ℚ) < 2 ^ roundingShift size := by positivity
  have lower : (0 : ℤ) ≤ Rounding.roundHalfEven (size / 2 ^ roundingShift size) := by
    have fromZero := Rounding.roundHalfEven_mono (div_nonneg nonneg positive.le)
    rwa [show (0 : ℚ) = ((0 : ℤ) : ℚ) from rfl, Rounding.roundHalfEven_intCast] at fromZero
  have upper : Rounding.roundHalfEven (size / 2 ^ roundingShift size) ≤ 2 ^ 53 := by
    have small : size / 2 ^ roundingShift size ≤ ((2 ^ 53 : ℤ) : ℚ) := by
      rw [div_le_iff₀ positive]
      push_cast
      exact (size_lt size).le
    have rounded := Rounding.roundHalfEven_mono small
    rwa [Rounding.roundHalfEven_intCast] at rounded
  refine ⟨(Rounding.roundHalfEven (size / 2 ^ roundingShift size)).toNat, by omega, ?_⟩
  rw [roundUnits, ← Int.cast_natCast, Int.toNat_of_nonneg lower]

theorem roundUnits_nonneg (nonneg : 0 ≤ size) : 0 ≤ roundUnits size := by
  obtain ⟨significand, _, isRounded⟩ := exists_significand nonneg
  rw [isRounded]
  positivity

theorem represented_roundUnits (nonneg : 0 ≤ size) : Represented (roundUnits size) := by
  obtain ⟨significand, small, isRounded⟩ := exists_significand nonneg
  by_cases isPower : significand = 2 ^ 53
  · refine ⟨2 ^ 52, roundingShift size + 1, by decide, ?_⟩
    rw [isRounded, isPower]
    push_cast
    ring
  · exact ⟨significand, roundingShift size, by omega, isRounded⟩

theorem roundUnits_of_represented (represented : Represented size) : roundUnits size = size := by
  obtain ⟨significand, shift, small, isSize⟩ := represented
  have isFloor : ⌊size⌋₊ = significand * 2 ^ shift := by
    rw [isSize]
    exact_mod_cast Nat.floor_natCast (R := ℚ) (significand * 2 ^ shift)
  have fits : roundingShift size ≤ shift := by
    rw [roundingShift, isFloor]
    by_cases isZero : significand = 0
    · simp [isZero]
    · have notZero : significand * 2 ^ shift ≠ 0 := Nat.mul_ne_zero isZero (by positivity)
      have log : Nat.log2 (significand * 2 ^ shift) < 53 + shift := by
        rw [Nat.log2_lt notZero, pow_add]
        exact Nat.mul_lt_mul_of_pos_right small (by positivity)
      omega
  -- the size is whole at its rounding shift
  have whole : size / 2 ^ roundingShift size = ((significand * 2 ^ (shift - roundingShift size) : ℕ) : ℚ) := by
    rw [div_eq_iff (by positivity)]
    push_cast
    rw [mul_assoc, ← pow_add, Nat.sub_add_cancel fits, isSize]
  have positive : (2 : ℚ) ^ roundingShift size ≠ 0 := by positivity
  rw [roundUnits, whole, Rounding.roundHalfEven_natCast, Int.cast_natCast, ← whole, div_mul_cancel₀ _ positive]

theorem roundUnits_mono (nonneg : 0 ≤ first) (inOrder : first ≤ second) : roundUnits first ≤ roundUnits second := by
  rcases (roundingShift_mono inOrder).lt_or_eq with shifts | shifts
  · -- a power of two lies between them, and rounding keeps both on their sides of it
    obtain ⟨significand, small, isRounded⟩ := exists_significand nonneg
    have below : roundUnits first ≤ 2 ^ 53 * 2 ^ roundingShift first := by
      rw [isRounded]
      gcongr
      exact_mod_cast small
    have between : (2 : ℚ) ^ 53 * 2 ^ roundingShift first ≤ 2 ^ 52 * 2 ^ roundingShift second := by
      rw [← pow_add, ← pow_add]
      exact pow_le_pow_right₀ one_le_two (by omega)
    have above : (2 : ℚ) ^ 52 * 2 ^ roundingShift second ≤ roundUnits second := by
      have positive : (0 : ℚ) < 2 ^ roundingShift second := by positivity
      have full : ((2 ^ 52 : ℤ) : ℚ) ≤ second / 2 ^ roundingShift second := by
        rw [le_div_iff₀ positive]
        push_cast
        exact le_size (nonneg.trans inOrder) (Nat.zero_lt_of_lt shifts)
      have rounded := Rounding.roundHalfEven_mono full
      rw [Rounding.roundHalfEven_intCast] at rounded
      rw [roundUnits]
      gcongr
      exact_mod_cast rounded
    exact (below.trans between).trans above
  · rw [roundUnits, roundUnits, shifts]
    gcongr
    exact_mod_cast Rounding.roundHalfEven_mono (div_le_div_of_nonneg_right inOrder (by positivity))

end Sizes

section Round

variable {first second : ℚ}

theorem units_nonneg (value : ℚ) : 0 ≤ units value := mul_nonneg (abs_nonneg value) scale_pos.le

theorem units_mono (inOrder : |first| ≤ |second|) : units first ≤ units second :=
  mul_le_mul_of_nonneg_right inOrder scale_pos.le

/-- How far the rounded number is from zero. -/
theorem size_nonneg (value : ℚ) : 0 ≤ roundUnits (units value) / scale :=
  div_nonneg (roundUnits_nonneg (units_nonneg value)) scale_pos.le

theorem round_nonneg (nonneg : 0 ≤ value) : 0 ≤ round value := by
  rw [round, if_neg (not_lt.mpr nonneg)]
  exact size_nonneg value

theorem round_nonpos (negative : value < 0) : round value ≤ 0 := by
  rw [round, if_pos negative]
  exact neg_nonpos.mpr (size_nonneg value)

/-- Rounding never exchanges two numbers, though it may make them equal. -/
theorem round_mono (inOrder : first ≤ second) : round first ≤ round second := by
  by_cases firstNegative : first < 0
  · by_cases secondNegative : second < 0
    · have sizes : |second| ≤ |first| := by
        rw [abs_of_neg firstNegative, abs_of_neg secondNegative]
        exact neg_le_neg inOrder
      rw [round, round, if_pos firstNegative, if_pos secondNegative]
      exact neg_le_neg (div_le_div_of_nonneg_right
        (roundUnits_mono (units_nonneg second) (units_mono sizes)) scale_pos.le)
    · exact (round_nonpos firstNegative).trans (round_nonneg (not_lt.mp secondNegative))
  · have firstNonneg := not_lt.mp firstNegative
    have secondNonneg := firstNonneg.trans inOrder
    have sizes : |first| ≤ |second| := by rwa [abs_of_nonneg firstNonneg, abs_of_nonneg secondNonneg]
    rw [round, round, if_neg firstNegative, if_neg (not_lt.mpr secondNonneg)]
    exact div_le_div_of_nonneg_right (roundUnits_mono (units_nonneg first) (units_mono sizes)) scale_pos.le

theorem round_of_represented (represented : Represented (units value)) : round value = value := by
  rw [round, roundUnits_of_represented represented, ← abs_eq_units]
  split
  · rename_i negative
    rw [abs_of_neg negative, neg_neg]
  · rename_i nonneg
    exact abs_of_nonneg (not_lt.mp nonneg)

theorem units_round (value : ℚ) : units (round value) = roundUnits (units value) := by
  have size : |round value| = roundUnits (units value) / scale := by
    rw [round]
    split
    · rw [abs_neg, abs_of_nonneg (size_nonneg value)]
    · exact abs_of_nonneg (size_nonneg value)
  rw [units, size, div_mul_cancel₀ _ scale_pos.ne']

/-- What is rounded is a double already. -/
@[simp] theorem round_round (value : ℚ) : round (round value) = round value := by
  apply round_of_represented
  rw [units_round]
  exact represented_roundUnits (units_nonneg value)

/-- Integers up to 53 bits are numbers of the format. -/
theorem round_intCast {number : ℤ} (small : number.natAbs < 2 ^ 53) : round number = number := by
  apply round_of_represented
  refine ⟨number.natAbs, 1074, small, ?_⟩
  rw [units, scale, ← Int.cast_abs, Int.abs_eq_natAbs, Int.cast_natCast]

/-- A rounded integer is an integer: beyond 53 bits whole units are left out. -/
theorem round_integer (number : ℤ) : ∃ rounded : ℤ, round number = rounded := by
  by_cases small : number.natAbs < 2 ^ 53
  · exact ⟨number, round_intCast small⟩
  · have isScale : scale = ((2 ^ 1074 : ℕ) : ℚ) := by rw [scale, Nat.cast_pow, Nat.cast_ofNat]
    have size : units (number : ℚ) = ((number.natAbs * 2 ^ 1074 : ℕ) : ℚ) := by
      rw [units, ← Int.cast_abs, Int.abs_eq_natAbs, Int.cast_natCast, isScale, ← Nat.cast_mul]
    have shifted : 1074 ≤ roundingShift (units (number : ℚ)) := by
      rw [roundingShift, size, Nat.floor_natCast]
      have large : 2 ^ (53 + 1074) ≤ number.natAbs * 2 ^ 1074 := by
        rw [pow_add]
        exact Nat.mul_le_mul_right _ (not_lt.mp small)
      have notZero : number.natAbs * 2 ^ 1074 ≠ 0 := (Nat.lt_of_lt_of_le (Nat.two_pow_pos _) large).ne'
      have log := (Nat.le_log2 notZero).mpr large
      omega
    obtain ⟨significand, _, isRounded⟩ := exists_significand (units_nonneg (number : ℚ))
    obtain ⟨more, isShift⟩ := Nat.exists_eq_add_of_le shifted
    have power : (2 : ℚ) ^ (1074 + more) = scale * 2 ^ more := pow_add 2 1074 more
    have whole : roundUnits (units (number : ℚ)) / scale = ((significand * 2 ^ more : ℤ) : ℚ) := by
      rw [isRounded, isShift, power, mul_left_comm, mul_div_cancel_left₀ _ scale_pos.ne']
      push_cast
      rfl
    rw [round, whole]
    split
    · exact ⟨-(significand * 2 ^ more), by push_cast; rfl⟩
    · exact ⟨_, rfl⟩

@[simp] theorem round_zero : round 0 = 0 := by
  have isZero : round ((0 : ℤ) : ℚ) = ((0 : ℤ) : ℚ) := round_intCast (by decide)
  rwa [Int.cast_zero] at isZero

@[simp] theorem round_one : round 1 = 1 := by
  have isOne : round ((1 : ℤ) : ℚ) = ((1 : ℤ) : ℚ) := round_intCast (by decide)
  rwa [Int.cast_one] at isOne

end Round

end Binary64
