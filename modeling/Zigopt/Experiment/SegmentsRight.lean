/-
Module: Zigopt.Experiment.SegmentsRight
Layer: Proofs
Purpose: The segments of every parameter are disjoint and sampled rightly, for every number of segments, and partition
  the domain exactly if their ends meet those of the domain. Rounded split points never repeat a value, half-open
  intervals meet at their fenceposts, and the integers of an interval are those between two integers. No segment is
  empty exactly if the rounded places are far enough apart.
Main exports: mem_intervals_iff, mem_toClosedIntegerInterval, segmentsApart, segmentsRight_iff, wellSpaced_iff
-/
import Mathlib.Data.Int.Interval
import Mathlib.Tactic.FieldSimp
import Mathlib.Tactic.Positivity
import Mathlib.Tactic.Ring
import Zigopt.Experiment.Segmenter

namespace Zigopt.Experiment

open ExperimentParameter

section

variable {K : Type} [Field K] [LinearOrder K]

/-! ### Split values -/

section SplitValues

theorem endpoint_mono (length sampleInterval : ℕ) : Monotone (endpoint length sampleInterval) := by
  intro first second inOrder
  have quotients : (first : ℚ) / sampleInterval ≤ second / sampleInterval := by
    have castInOrder : (first : ℚ) ≤ second := Nat.cast_le.mpr inOrder
    gcongr
  apply Int.toNat_le_toNat
  apply Rounding.roundHalfEven_mono
  apply Binary64.round_mono
  exact mul_le_mul_of_nonneg_right (Binary64.round_mono quotients) (Binary64.round_nonneg (by positivity))

theorem endpoint_zero (length sampleInterval : ℕ) : endpoint length sampleInterval 0 = 0 := by
  rw [endpoint, Nat.cast_zero, zero_div, Binary64.round_zero, zero_mul, Binary64.round_zero, ← Nat.cast_zero,
    Rounding.roundHalfEven_natCast, Int.toNat_natCast]

/-- The last split point is the double next to the number of values. -/
theorem endpoint_last (length : ℕ) {sampleInterval : ℕ} (positive : 0 < sampleInterval) :
    ((endpoint length sampleInterval sampleInterval : ℕ) : ℚ) = Binary64.round length := by
  have notZero : (sampleInterval : ℚ) ≠ 0 := Nat.cast_ne_zero.mpr positive.ne'
  have nonneg : 0 ≤ Binary64.round (length : ℚ) := Binary64.round_nonneg (Nat.cast_nonneg length)
  obtain ⟨rounded, isRounded⟩ := Binary64.round_integer length
  rw [Int.cast_natCast] at isRounded
  rw [endpoint, div_self notZero, Binary64.round_one, one_mul, Binary64.round_round, isRounded,
    Rounding.roundHalfEven_intCast]
  rw [isRounded] at nonneg
  exact_mod_cast Int.toNat_of_nonneg (Int.cast_nonneg_iff.mp nonneg)

variable {sortedValues : List K} {sampleInterval : ℕ}

omit [Field K] [LinearOrder K] in
/-- The slices are the values up to the last split point, each in one of them. -/
theorem flatten_splitValues (sortedValues : List K) (sampleInterval : ℕ) :
    (Segments.slices sortedValues (endpoint sortedValues.length sampleInterval) sampleInterval).flatten =
      sortedValues.take (endpoint sortedValues.length sampleInterval sampleInterval) :=
  Segments.flatten_slices _ (endpoint_mono _ _) (endpoint_zero _ _) _

omit [Field K] [LinearOrder K] in
theorem length_splitValues : (splitValues sortedValues sampleInterval).length = sampleInterval := by
  rw [splitValues, Segments.slices, List.length_map, List.length_map, List.length_range]

omit [Field K] in
theorem mem_splitValues (value : K) :
    (∃ segment ∈ splitValues sortedValues sampleInterval, value ∈ segment) ↔
      value ∈ sortedValues.take (endpoint sortedValues.length sampleInterval sampleInterval) := by
  rw [← flatten_splitValues sortedValues sampleInterval, List.mem_flatten]
  constructor
  · intro isCovered
    obtain ⟨segment, member, isIn⟩ := isCovered
    obtain ⟨members, isSlice, rfl⟩ := List.mem_map.mp member
    exact ⟨members, isSlice, isIn⟩
  · intro isSliced
    obtain ⟨members, isSlice, isIn⟩ := isSliced
    exact ⟨.values members, List.mem_map_of_mem isSlice, isIn⟩

omit [Field K] in
theorem disjoint_splitValues (distinct : sortedValues.Nodup) :
    Segments.Disjoint (α := K) (splitValues sortedValues sampleInterval) := by
  have sliced := distinct.sublist (List.take_sublist (endpoint sortedValues.length sampleInterval sampleInterval) _)
  rw [← flatten_splitValues sortedValues sampleInterval, List.nodup_flatten] at sliced
  apply List.pairwise_map.mpr
  apply sliced.2.imp
  intro first second apart value both
  exact apart both.1 both.2

omit [Field K] [LinearOrder K] in
/-- A segment is a slice. -/
theorem exists_members {segment : Segment K} (member : segment ∈ splitValues sortedValues sampleInterval) :
    ∃ members, segment = .values members := by
  obtain ⟨members, _, rfl⟩ := List.mem_map.mp member
  exact ⟨members, rfl⟩

omit [Field K] in
/-- All values are in a segment exactly if the last split point is not before the last of them. -/
theorem covered_iff (distinct : sortedValues.Nodup) :
    (∀ value ∈ sortedValues, ∃ segment ∈ splitValues sortedValues sampleInterval, value ∈ segment) ↔
      sortedValues.length ≤ endpoint sortedValues.length sampleInterval sampleInterval := by
  simp only [mem_splitValues]
  constructor
  · intro covered
    have shorter := (List.subperm_of_subset distinct covered).length_le
    rw [List.length_take] at shorter
    omega
  · intro enough value member
    rwa [List.take_of_length_le enough]

omit [Field K] in
/-- No slice is empty exactly if the split points follow each other at different places before the last value. -/
theorem splitValues_nonempty_iff :
    (∀ segment ∈ splitValues sortedValues sampleInterval, ∃ value, value ∈ segment) ↔
      ∀ index < sampleInterval, endpoint sortedValues.length sampleInterval index < sortedValues.length ∧
        endpoint sortedValues.length sampleInterval index < endpoint sortedValues.length sampleInterval (index + 1) := by
  have slices : ∀ index, (∃ value, value ∈ Segment.values (Segments.slice sortedValues
        (endpoint sortedValues.length sampleInterval index) (endpoint sortedValues.length sampleInterval (index + 1)))) ↔
      endpoint sortedValues.length sampleInterval index < sortedValues.length ∧
        endpoint sortedValues.length sampleInterval index < endpoint sortedValues.length sampleInterval (index + 1) := by
    intro index
    simp only [Segment.mem_values]
    rw [← List.length_pos_iff_exists_mem, Segments.slice, List.length_take, List.length_drop]
    omega
  rw [splitValues, Segments.slices, List.forall_mem_map, List.forall_mem_map]
  simp only [slices, List.mem_range]

end SplitValues

/-! ### Intervals between fenceposts -/

section Intervals

variable {fencepost : ℕ → K} {sampleInterval : ℕ}

omit [Field K] [LinearOrder K] in
theorem mem_intervalsBetween {segment : Segment K} :
    segment ∈ intervalsBetween fencepost sampleInterval ↔ ∃ index < sampleInterval,
      (index + 1 < sampleInterval ∧ segment = .rightOpen (fencepost index) (fencepost (index + 1))) ∨
        (index + 1 = sampleInterval ∧ segment = .closed (fencepost index) (fencepost (index + 1))) := by
  rw [intervalsBetween, List.mem_map]
  constructor
  · intro isInterval
    obtain ⟨index, inRange, isSegment⟩ := isInterval
    refine ⟨index, List.mem_range.mp inRange, ?_⟩
    by_cases isLast : index + 1 = sampleInterval
    · rw [if_pos isLast] at isSegment
      exact Or.inr ⟨isLast, isSegment.symm⟩
    · rw [if_neg isLast] at isSegment
      exact Or.inl ⟨Nat.lt_of_le_of_ne (List.mem_range.mp inRange) isLast, isSegment.symm⟩
  · intro isInterval
    obtain ⟨index, inRange, isSegment⟩ := isInterval
    refine ⟨index, List.mem_range.mpr inRange, ?_⟩
    rcases isSegment with ⟨isEarlier, rfl⟩ | ⟨isLast, rfl⟩
    · exact if_neg isEarlier.ne
    · exact if_pos isLast

omit [Field K] [LinearOrder K] in
theorem length_intervalsBetween : (intervalsBetween fencepost sampleInterval).length = sampleInterval := by
  rw [intervalsBetween, List.length_map, List.length_range]

omit [Field K] in
/-- Together the intervals are what lies between the first and the last fencepost. -/
theorem mem_intervals_iff (increasing : Monotone fencepost) (positive : 0 < sampleInterval) (value : K) :
    (∃ segment ∈ intervalsBetween fencepost sampleInterval, value ∈ segment) ↔
      fencepost 0 ≤ value ∧ value ≤ fencepost sampleInterval := by
  constructor
  · intro isCovered
    obtain ⟨segment, member, isIn⟩ := isCovered
    obtain ⟨index, inRange, isSegment⟩ := mem_intervalsBetween.mp member
    have first : fencepost 0 ≤ fencepost index := increasing (Nat.zero_le index)
    have last : fencepost (index + 1) ≤ fencepost sampleInterval := increasing inRange
    rcases isSegment with ⟨_, rfl⟩ | ⟨_, rfl⟩
    · exact ⟨first.trans isIn.1, isIn.2.le.trans last⟩
    · exact ⟨first.trans isIn.1, isIn.2.trans last⟩
  · intro between
    obtain ⟨count, rfl⟩ : ∃ count, sampleInterval = count + 1 := Nat.exists_eq_succ_of_ne_zero positive.ne'
    by_cases isLast : fencepost count ≤ value
    · exact ⟨_, mem_intervalsBetween.mpr ⟨count, Nat.lt_succ_self count, Or.inr ⟨rfl, rfl⟩⟩, isLast, between.2⟩
    · obtain ⟨index, inRange, isBetween⟩ := Segments.exists_between_fences fencepost between.1 (not_le.mp isLast)
      have isEarlier : index + 1 < count + 1 := Nat.succ_lt_succ inRange
      exact ⟨_, mem_intervalsBetween.mpr ⟨index, Nat.lt_succ_of_lt inRange, Or.inl ⟨isEarlier, rfl⟩⟩, isBetween⟩

omit [Field K] in
theorem disjoint_intervalsBetween (increasing : Monotone fencepost) :
    Segments.Disjoint (α := K) (intervalsBetween fencepost sampleInterval) := by
  apply List.pairwise_map.mpr
  apply List.Pairwise.imp_of_mem ?_ List.pairwise_lt_range
  intro first second _ secondInRange inOrder value both
  have isEarlier : first + 1 ≠ sampleInterval := by
    have inRange := List.mem_range.mp secondInRange
    omega
  rw [if_neg isEarlier] at both
  have above : fencepost second ≤ value := by
    by_cases isLast : second + 1 = sampleInterval
    · rw [if_pos isLast] at both
      exact both.2.1
    · rw [if_neg isLast] at both
      exact both.2.1
  have below : value < fencepost (first + 1) := both.1.2
  have inBetween : fencepost (first + 1) ≤ fencepost second := increasing inOrder
  exact absurd (above.trans_lt below) (not_lt.mpr inBetween)

omit [Field K] in
/-- Every interval between fenceposts that lie apart is true, and it holds its first fencepost. -/
theorem isTrue_of_strictMono (increasing : StrictMono fencepost) {segment : Segment K}
    (member : segment ∈ intervalsBetween fencepost sampleInterval) :
    segment.isTrue = true ∧ ∃ value, value ∈ segment := by
  obtain ⟨index, _, isSegment⟩ := mem_intervalsBetween.mp member
  have apart : fencepost index < fencepost (index + 1) := increasing (Nat.lt_succ_self index)
  rcases isSegment with ⟨_, rfl⟩ | ⟨_, rfl⟩
  · exact ⟨decide_eq_true apart, fencepost index, le_rfl, apart⟩
  · exact ⟨decide_eq_true apart.le, fencepost index, le_rfl, apart.le⟩

end Intervals

/-! ### Integers of an interval -/

section Integers

variable [IsStrictOrderedRing K] [FloorRing K]

/-- The closed integer interval has the integers of an interval. -/
theorem mem_toClosedIntegerInterval {interval : Segment K} {min max : K} (hasEnds : interval.ends = .ok (min, max)) :
    ∃ lower upper, toClosedIntegerInterval interval = .ok (lower, upper) ∧
      ∀ integer : ℤ, (integer : K) ∈ interval ↔ lower ≤ integer ∧ integer ≤ upper := by
  refine ⟨_, _, by rw [toClosedIntegerInterval, hasEnds]; rfl, ?_⟩
  intro integer
  have ceilFloor : ⌊max⌋ ≤ ⌈max⌉ ∧ ⌈max⌉ ≤ ⌊max⌋ + 1 := ⟨Int.floor_le_ceil max, Int.ceil_le_floor_add_one max⟩
  cases interval with
  | values members => cases hasEnds
  | rightOpen first last =>
      cases hasEnds
      have integers : ∀ other : ℤ, (other : K) ∈ Segment.rightOpen min max ↔ ⌈min⌉ ≤ other ∧ other < ⌈max⌉ := by
        intro other
        rw [Segment.mem_rightOpen, Int.ceil_le, Int.lt_ceil]
      simp only [integers]
      split_ifs <;> omega
  | closed first last =>
      cases hasEnds
      have integers : ∀ other : ℤ, (other : K) ∈ Segment.closed min max ↔ ⌈min⌉ ≤ other ∧ other ≤ ⌊max⌋ := by
        intro other
        rw [Segment.mem_closed, Int.ceil_le, Int.le_floor]
      simp only [integers]
      split_ifs <;> omega

omit [IsStrictOrderedRing K] [FloorRing K] in
theorem randint_mem (draw : Draw K) {lower upper : ℤ} (inOrder : lower ≤ upper) :
    ∃ sampled, draw.randint lower upper = .ok sampled ∧ lower ≤ sampled ∧ sampled ≤ upper := by
  refine ⟨lower + (draw.number : ℤ) % (upper - lower + 1), if_pos inOrder, ?_, ?_⟩
  · have nonneg := Int.emod_nonneg (draw.number : ℤ) (show upper - lower + 1 ≠ 0 by omega)
    omega
  · have small := Int.emod_lt_of_pos (draw.number : ℤ) (show 0 < upper - lower + 1 by omega)
    omega

omit [FloorRing K] in
/-- A uniform draw lies in the half-open interval it is given. -/
theorem uniform_mem (draw : Draw K) {first last : K} (inOrder : first < last) :
    first ≤ draw.uniform first last ∧ draw.uniform first last < last := by
  have width : 0 < last - first := sub_pos.mpr inOrder
  rw [Draw.uniform]
  constructor
  · have nonneg := mul_nonneg width.le draw.nonneg
    linarith
  · have small := mul_lt_mul_of_pos_left draw.lt_one width
    linarith

omit [IsStrictOrderedRing K] [FloorRing K] in
theorem choice_mem {α : Type} (draw : Draw K) {items : List α} (nonempty : items ≠ []) :
    ∃ item ∈ items, draw.choice items = .ok item := by
  have inRange : draw.number % items.length < items.length := Nat.mod_lt _ (List.length_pos_of_ne_nil nonempty)
  refine ⟨_, List.getElem_mem inRange, ?_⟩
  rw [Draw.choice, List.getElem?_eq_getElem inRange]

end Integers

/-! ### Fenceposts -/

section Fenceposts

variable {parameter : ExperimentParameter} {sampleInterval : ℕ}

theorem arithmetic_of_integer (isInteger : parameter.isInteger = true) : parameter.arithmetic = Binary64.round :=
  if_pos isInteger

theorem arithmetic_of_not_integer (notInteger : parameter.isInteger = false) : parameter.arithmetic = id := by
  rw [arithmetic, notInteger, if_neg Bool.false_ne_true]

/-- The fenceposts of a real range, which are exact. -/
theorem linearFencepost_exact (notInteger : parameter.isInteger = false) (index : ℕ) :
    linearFencepost parameter sampleInterval parameter.length index = parameter.bounds.minimum +
      (index : ℚ) / sampleInterval * (parameter.bounds.maximum - parameter.bounds.minimum) := by
  simp only [linearFencepost, ExperimentParameter.length, arithmetic_of_not_integer notInteger, id]

theorem linearFencepost_strictMono (notInteger : parameter.isInteger = false) (positive : 0 < sampleInterval)
    (inOrder : parameter.bounds.minimum < parameter.bounds.maximum) :
    StrictMono (linearFencepost parameter sampleInterval parameter.length) := by
  intro first second before
  have castBefore : (first : ℚ) < second := Nat.cast_lt.mpr before
  have castPositive : (0 : ℚ) < sampleInterval := Nat.cast_pos.mpr positive
  have width := sub_pos.mpr inOrder
  rw [linearFencepost_exact notInteger, linearFencepost_exact notInteger]
  gcongr

/-- The fenceposts of a real range go from its minimum to its maximum. -/
theorem linearFencepost_ends (notInteger : parameter.isInteger = false) (positive : 0 < sampleInterval) :
    linearFencepost parameter sampleInterval parameter.length 0 = parameter.bounds.minimum ∧
      linearFencepost parameter sampleInterval parameter.length sampleInterval = parameter.bounds.maximum := by
  have notZero : (sampleInterval : ℚ) ≠ 0 := Nat.cast_ne_zero.mpr positive.ne'
  rw [linearFencepost_exact notInteger, linearFencepost_exact notInteger]
  constructor
  · rw [Nat.cast_zero, zero_div, zero_mul, add_zero]
  · rw [div_self notZero, one_mul, add_sub_cancel]

section Integer

variable (isInteger : parameter.isInteger = true)

include isInteger

theorem length_nonneg (inOrder : parameter.bounds.minimum ≤ parameter.bounds.maximum) : 0 ≤ parameter.length := by
  rw [ExperimentParameter.length, arithmetic_of_integer isInteger]
  exact Binary64.round_nonneg (sub_nonneg.mpr inOrder)

/-- Rounding keeps the order of the fenceposts, but may make two of them one. -/
theorem linearFencepost_mono (inOrder : parameter.bounds.minimum ≤ parameter.bounds.maximum) :
    Monotone (linearFencepost parameter sampleInterval parameter.length) := by
  intro first second before
  have quotients : (first : ℚ) / sampleInterval ≤ second / sampleInterval := by
    have castBefore : (first : ℚ) ≤ second := Nat.cast_le.mpr before
    gcongr
  rw [linearFencepost, linearFencepost, arithmetic_of_integer isInteger]
  apply Binary64.round_mono
  apply add_le_add le_rfl
  apply Binary64.round_mono
  exact mul_le_mul_of_nonneg_right (Binary64.round_mono quotients) (length_nonneg isInteger inOrder)

theorem linearFencepost_first (stored : Binary64.round parameter.bounds.minimum = parameter.bounds.minimum) :
    linearFencepost parameter sampleInterval parameter.length 0 = parameter.bounds.minimum := by
  rw [linearFencepost, arithmetic_of_integer isInteger, Nat.cast_zero, zero_div, Binary64.round_zero, zero_mul,
    Binary64.round_zero, add_zero, stored]

theorem linearFencepost_last (positive : 0 < sampleInterval) :
    linearFencepost parameter sampleInterval parameter.length sampleInterval =
      Binary64.round (parameter.bounds.minimum + parameter.length) := by
  have notZero : (sampleInterval : ℚ) ≠ 0 := Nat.cast_ne_zero.mpr positive.ne'
  have isRounded : Binary64.round parameter.length = parameter.length := by
    rw [ExperimentParameter.length, arithmetic_of_integer isInteger, Binary64.round_round]
  rw [linearFencepost, arithmetic_of_integer isInteger, div_self notZero, Binary64.round_one, one_mul, isRounded]

/-- The last fencepost of an integer range is an integer. -/
theorem linearFencepost_last_integer (positive : 0 < sampleInterval) {minimum maximum : ℤ}
    (isBounds : parameter.bounds = ⟨minimum, maximum⟩) :
    ∃ integer : ℤ, linearFencepost parameter sampleInterval parameter.length sampleInterval = integer := by
  obtain ⟨width, isWidth⟩ := Binary64.round_integer (maximum - minimum)
  have isLength : parameter.length = width := by
    rw [ExperimentParameter.length, arithmetic_of_integer isInteger, isBounds, ← isWidth]
    push_cast
    rfl
  rw [linearFencepost_last isInteger positive, isLength, isBounds]
  dsimp only
  rw [← Int.cast_add]
  exact Binary64.round_integer (minimum + width)

end Integer

variable [IsStrictOrderedRing K]

omit [IsStrictOrderedRing K] in
/-- The logarithm keeps the order of positive numbers. -/
theorem Logarithm.log10_lt (logarithm : Logarithm K) {first second : K} (isPositive : 0 < first)
    (inOrder : first < second) : logarithm.log10 first < logarithm.log10 second := by
  rw [← logarithm.strictMono_pow10.lt_iff_lt, logarithm.pow10_log10 first isPositive,
    logarithm.pow10_log10 second (isPositive.trans inOrder)]
  exact inOrder

theorem logFencepost_ends (logarithm : Logarithm K) {minimum maximum : K} (isPositive : 0 < minimum)
    (inOrder : minimum < maximum) (positive : 0 < sampleInterval) :
    let fencepost := logFencepost logarithm (logarithm.log10 minimum) sampleInterval
      (logarithm.log10 maximum - logarithm.log10 minimum)
    fencepost 0 = minimum ∧ fencepost sampleInterval = maximum := by
  have notZero : (sampleInterval : K) ≠ 0 := Nat.cast_ne_zero.mpr positive.ne'
  constructor
  · rw [logFencepost, Nat.cast_zero, zero_div, zero_mul, add_zero, logarithm.pow10_log10 minimum isPositive]
  · rw [logFencepost, div_self notZero, one_mul, add_sub_cancel,
      logarithm.pow10_log10 maximum (isPositive.trans inOrder)]

theorem logFencepost_strictMono (logarithm : Logarithm K) (positive : 0 < sampleInterval) (logMin : K) {length : K}
    (isPositive : 0 < length) : StrictMono (logFencepost logarithm logMin sampleInterval length) := by
  intro first second inOrder
  have castInOrder : (first : K) < second := Nat.cast_lt.mpr inOrder
  have castPositive : (0 : K) < sampleInterval := Nat.cast_pos.mpr positive
  apply logarithm.strictMono_pow10
  gcongr

/-- The fenceposts of a numerical parameter without a grid. -/
def fencepost (logarithm : Logarithm K) (parameter : ExperimentParameter) (sampleInterval : ℕ) : ℕ → K :=
  if !parameter.hasLogTransformation then
    fun index => (linearFencepost parameter sampleInterval parameter.length index : K)
  else
    logFencepost logarithm (logarithm.log10 parameter.bounds.minimum) sampleInterval
      (logarithm.log10 parameter.bounds.maximum - logarithm.log10 parameter.bounds.minimum)

omit [IsStrictOrderedRing K] in
theorem segmentedIntervals_numerical (logarithm : Logarithm K) (isNumerical : parameter.isCategorical = false)
    (hasNoGrid : parameter.isGrid = false) :
    segmentedIntervals logarithm parameter sampleInterval =
      intervalsBetween (fencepost logarithm parameter sampleInterval) sampleInterval := by
  rw [segmentedIntervals, fencepost, isNumerical, hasNoGrid]
  cases parameter.hasLogTransformation <;> rfl

theorem not_isInteger_of_isDouble (isDouble : parameter.isDouble = true) : parameter.isInteger = false := by
  rw [isInteger, of_decide_eq_true isDouble]
  rfl

theorem fencepost_double (logarithm : Logarithm K) (positive : 0 < sampleInterval) (valid : ValidDomain parameter)
    (isDouble : parameter.isDouble = true) (hasNoGrid : parameter.isGrid = false) :
    StrictMono (fencepost logarithm parameter sampleInterval) ∧
      fencepost logarithm parameter sampleInterval 0 = parameter.bounds.minimum ∧
      fencepost logarithm parameter sampleInterval sampleInterval = parameter.bounds.maximum := by
  have inOrder := valid.double isDouble hasNoGrid
  have castInOrder : (parameter.bounds.minimum : K) < parameter.bounds.maximum := Rat.cast_lt.mpr inOrder
  by_cases hasLog : parameter.hasLogTransformation = true
  · have isPositive : (0 : K) < parameter.bounds.minimum := Rat.cast_pos.mpr ((valid.log hasLog).2 hasNoGrid)
    have width := sub_pos.mpr (logarithm.log10_lt isPositive castInOrder)
    rw [fencepost, hasLog]
    exact ⟨logFencepost_strictMono logarithm positive _ width,
      logFencepost_ends logarithm isPositive castInOrder positive⟩
  · have notInteger := not_isInteger_of_isDouble isDouble
    have ends := linearFencepost_ends notInteger positive
    rw [fencepost, Bool.eq_false_of_not_eq_true hasLog]
    refine ⟨?_, congrArg Rat.cast ends.1, congrArg Rat.cast ends.2⟩
    exact Rat.cast_strictMono.comp (linearFencepost_strictMono notInteger positive inOrder)

theorem not_log_of_integer (valid : ValidDomain parameter) (isInteger : parameter.isInteger = true) :
    parameter.hasLogTransformation = false := by
  rw [Bool.eq_false_iff]
  intro hasLog
  rw [not_isInteger_of_isDouble (valid.log hasLog).1] at isInteger
  cases isInteger

omit [IsStrictOrderedRing K] in
theorem fencepost_integer (logarithm : Logarithm K) (valid : ValidDomain parameter)
    (isInteger : parameter.isInteger = true) (index : ℕ) :
    fencepost logarithm parameter sampleInterval index =
      (linearFencepost parameter sampleInterval parameter.length index : K) := by
  rw [fencepost, not_log_of_integer valid isInteger]
  rfl

theorem fencepost_integer_mono (logarithm : Logarithm K) (valid : ValidDomain parameter)
    (isInteger : parameter.isInteger = true) (hasNoGrid : parameter.isGrid = false) :
    Monotone (fencepost logarithm parameter sampleInterval) := by
  obtain ⟨minimum, maximum, isBounds, inOrder⟩ := valid.integer isInteger hasNoGrid
  have castInOrder : parameter.bounds.minimum ≤ parameter.bounds.maximum := by
    rw [isBounds]
    exact Int.cast_le.mpr inOrder
  intro first second before
  rw [fencepost_integer logarithm valid isInteger, fencepost_integer logarithm valid isInteger]
  exact Rat.cast_le.mpr (linearFencepost_mono isInteger castInOrder before)

end Fenceposts

/-! ### The kinds of parameters -/

section Kinds

variable [IsStrictOrderedRing K] {parameter : ExperimentParameter} {sampleInterval : ℕ}

/-- The values that the segments of a categorical parameter or one with a grid are cut from. -/
def sortedValues (K : Type) [Field K] [LinearOrder K] (parameter : ExperimentParameter) : List K :=
  if parameter.isCategorical then
    parameter.sortedIndices.map Nat.cast
  else
    (parameter.gridValues.insertionSort (· ≤ ·)).map Rat.cast

omit [IsStrictOrderedRing K] in
theorem length_sortedValues : (sortedValues K parameter).length = parameter.valueCount := by
  unfold sortedValues valueCount
  split
  · rw [List.length_map, sortedIndices, List.length_insertionSort, List.length_map]
  · rw [List.length_map, List.length_insertionSort]

omit [IsStrictOrderedRing K] in
theorem mem_sortedValues (isFinite : (parameter.isCategorical || parameter.isGrid) = true) (value : K) :
    InDomain parameter value ↔ value ∈ sortedValues K parameter := by
  by_cases isCategorical : parameter.isCategorical = true
  · rw [InDomain, if_pos isCategorical, sortedValues, if_pos isCategorical, sortedIndices, List.mem_map]
    constructor
    · intro isValue
      obtain ⟨categoricalValue, isActive, rfl⟩ := isValue
      exact ⟨_, (List.mem_insertionSort _).mpr (List.mem_map_of_mem isActive), rfl⟩
    · intro isIndex
      obtain ⟨index, isSorted, rfl⟩ := isIndex
      obtain ⟨categoricalValue, isActive, rfl⟩ := List.mem_map.mp ((List.mem_insertionSort _).mp isSorted)
      exact ⟨categoricalValue, isActive, rfl⟩
  · have isGrid : parameter.isGrid = true := by simpa [isCategorical] using isFinite
    rw [InDomain, if_neg isCategorical, if_pos isGrid, sortedValues, if_neg isCategorical, List.mem_map]
    simp only [List.mem_insertionSort, eq_comm]

theorem nodup_sortedValues (valid : ValidDomain parameter)
    (isFinite : (parameter.isCategorical || parameter.isGrid) = true) : (sortedValues K parameter).Nodup := by
  by_cases isCategorical : parameter.isCategorical = true
  · rw [sortedValues, if_pos isCategorical, sortedIndices]
    apply List.Nodup.map Nat.cast_injective
    exact (List.perm_insertionSort _ _).nodup_iff.mpr (valid.categorical isCategorical)
  · have isGrid : parameter.isGrid = true := by simpa [isCategorical] using isFinite
    rw [sortedValues, if_neg isCategorical]
    apply List.Nodup.map Rat.cast_injective
    exact (List.perm_insertionSort _ _).nodup_iff.mpr (valid.grid isGrid)

omit [IsStrictOrderedRing K] in
theorem segmentedIntervals_finite (logarithm : Logarithm K)
    (isFinite : (parameter.isCategorical || parameter.isGrid) = true) :
    segmentedIntervals logarithm parameter sampleInterval = splitValues (sortedValues K parameter) sampleInterval := by
  by_cases isCategorical : parameter.isCategorical = true
  · rw [segmentedIntervals, if_pos isCategorical, sortedValues, if_pos isCategorical]
  · have isGrid : parameter.isGrid = true := by simpa [isCategorical] using isFinite
    rw [segmentedIntervals, if_neg isCategorical, if_pos isGrid, sortedValues, if_neg isCategorical]

omit [LinearOrder K] [IsStrictOrderedRing K] in
/-- Only integer parameters without a grid are asked for integers. -/
theorem ofType_of_finite (isFinite : (parameter.isCategorical || parameter.isGrid) = true) (value : K) :
    OfType parameter value := by
  intro isNumerical hasNoGrid
  rw [isNumerical, hasNoGrid] at isFinite
  cases isFinite

omit [IsStrictOrderedRing K] in
theorem ofType_of_inDomain {value : K} (inDomain : InDomain parameter value) : OfType parameter value := by
  intro isNumerical hasNoGrid
  rw [InDomain, isNumerical, hasNoGrid] at inDomain
  exact inDomain.2

omit [IsStrictOrderedRing K] in
theorem inDomain_numerical (isNumerical : parameter.isCategorical = false) (hasNoGrid : parameter.isGrid = false)
    {value : K} (ofType : OfType parameter value) :
    InDomain parameter value ↔ (parameter.bounds.minimum : K) ≤ value ∧ value ≤ parameter.bounds.maximum := by
  rw [InDomain, isNumerical, hasNoGrid]
  exact and_iff_left (ofType isNumerical hasNoGrid)

variable [FloorRing K] {logarithm : Logarithm K}

omit [IsStrictOrderedRing K] in
/-- Segments that are slices of the values are told apart and sampled rightly. -/
theorem segmentsApart_of_split {sortedValues : List K} (distinct : sortedValues.Nodup)
    (areSlices : segmentedIntervals logarithm parameter sampleInterval = splitValues sortedValues sampleInterval)
    (anyType : ∀ value : K, OfType parameter value)
    (isTested : ∀ segment : Segment K, hasValues parameter segment = .ok segment.isTrue)
    (isSampled : ∀ (segment : Segment K) draw, sampleFromInterval parameter segment draw = draw.choice segment.toTuple) :
    SegmentsApart logarithm parameter sampleInterval := by
  constructor
  case length => rw [areSlices, length_splitValues]
  case disjoint =>
    rw [areSlices]
    exact disjoint_splitValues distinct
  case hasValues =>
    intro segment member
    refine ⟨_, isTested segment, ?_⟩
    rw [areSlices] at member
    obtain ⟨members, rfl⟩ := exists_members member
    rw [Segment.isTrue, decide_eq_true_iff]
    constructor
    · intro nonempty
      obtain ⟨value, isIn⟩ := List.exists_mem_of_ne_nil members nonempty
      exact ⟨value, anyType value, isIn⟩
    · intro hasValue
      obtain ⟨value, _, isIn⟩ := hasValue
      exact List.ne_nil_of_mem isIn
  case samples =>
    intro segment member hasValue draw
    rw [areSlices] at member
    obtain ⟨members, rfl⟩ := exists_members member
    obtain ⟨value, _, isIn⟩ := hasValue
    obtain ⟨sampled, isSampledIn, isChoice⟩ := choice_mem draw (List.ne_nil_of_mem isIn)
    rw [isSampled]
    exact ⟨sampled, isChoice, anyType sampled, isSampledIn⟩

/-- Intervals between real fenceposts. -/
theorem segmentsApart_of_fences {fencepost : ℕ → K} (increasing : StrictMono fencepost)
    (areIntervals : segmentedIntervals logarithm parameter sampleInterval = intervalsBetween fencepost sampleInterval)
    (anyType : ∀ value : K, OfType parameter value)
    (isTested : ∀ segment : Segment K, hasValues parameter segment = .ok segment.isTrue)
    (isSampled : ∀ (segment : Segment K) draw min max, segment.ends = .ok (min, max) →
      sampleFromInterval parameter segment draw = .ok (draw.uniform min max)) :
    SegmentsApart logarithm parameter sampleInterval := by
  constructor
  case length => rw [areIntervals, length_intervalsBetween]
  case disjoint =>
    rw [areIntervals]
    exact disjoint_intervalsBetween increasing.monotone
  case hasValues =>
    intro segment member
    rw [areIntervals] at member
    obtain ⟨isTrue, value, isIn⟩ := isTrue_of_strictMono increasing member
    refine ⟨_, isTested segment, ?_⟩
    exact ⟨fun _ => ⟨value, anyType value, isIn⟩, fun _ => isTrue⟩
  case samples =>
    intro segment member _ draw
    rw [areIntervals] at member
    obtain ⟨index, _, isSegment⟩ := mem_intervalsBetween.mp member
    have apart : fencepost index < fencepost (index + 1) := increasing (Nat.lt_succ_self index)
    have between := uniform_mem draw apart
    have isIn : draw.uniform (fencepost index) (fencepost (index + 1)) ∈ segment := by
      rcases isSegment with ⟨_, rfl⟩ | ⟨_, rfl⟩
      · exact between
      · exact ⟨between.1, between.2.le⟩
    have hasEnds : segment.ends = .ok (fencepost index, fencepost (index + 1)) := by
      rcases isSegment with ⟨_, rfl⟩ | ⟨_, rfl⟩ <;> rfl
    exact ⟨_, isSampled segment draw _ _ hasEnds, anyType _, isIn⟩

/-- Intervals between the fenceposts of an integer range; some of them may hold no integer. -/
theorem segmentsApart_of_integers {fencepost : ℕ → K} (increasing : Monotone fencepost)
    (areIntervals : segmentedIntervals logarithm parameter sampleInterval = intervalsBetween fencepost sampleInterval)
    (isNumerical : parameter.isCategorical = false) (hasNoGrid : parameter.isGrid = false)
    (isInteger : parameter.isInteger = true) (isNotDouble : parameter.isDouble = false) :
    SegmentsApart logarithm parameter sampleInterval := by
  have ofInteger : ∀ integer : ℤ, OfType parameter (integer : K) := fun integer _ _ _ => ⟨integer, rfl⟩
  have hasEnds : ∀ segment ∈ intervalsBetween fencepost sampleInterval, ∃ min max, segment.ends = .ok (min, max) := by
    intro segment member
    obtain ⟨index, _, isSegment⟩ := mem_intervalsBetween.mp member
    refine ⟨fencepost index, fencepost (index + 1), ?_⟩
    rcases isSegment with ⟨_, rfl⟩ | ⟨_, rfl⟩ <;> rfl
  constructor
  case length => rw [areIntervals, length_intervalsBetween]
  case disjoint =>
    rw [areIntervals]
    exact disjoint_intervalsBetween increasing
  case hasValues =>
    intro segment member
    rw [areIntervals] at member
    obtain ⟨min, max, segmentEnds⟩ := hasEnds segment member
    obtain ⟨lower, upper, isClosed, integers⟩ := mem_toClosedIntegerInterval segmentEnds
    refine ⟨decide (lower ≤ upper), ?_, ?_⟩
    · rw [hasValues, isInteger, hasNoGrid, isClosed]
      rfl
    · rw [decide_eq_true_iff]
      constructor
      · intro inOrder
        exact ⟨lower, ofInteger lower, (integers lower).mpr ⟨le_rfl, inOrder⟩⟩
      · intro hasValue
        obtain ⟨value, ofType, isIn⟩ := hasValue
        obtain ⟨integer, rfl⟩ := ofType isNumerical hasNoGrid isInteger
        have between := (integers integer).mp isIn
        exact between.1.trans between.2
  case samples =>
    intro segment member hasValue draw
    rw [areIntervals] at member
    obtain ⟨min, max, segmentEnds⟩ := hasEnds segment member
    obtain ⟨lower, upper, isClosed, integers⟩ := mem_toClosedIntegerInterval segmentEnds
    obtain ⟨value, ofType, isIn⟩ := hasValue
    obtain ⟨integer, rfl⟩ := ofType isNumerical hasNoGrid isInteger
    have between := (integers integer).mp isIn
    obtain ⟨sampled, isDrawn, sampledBetween⟩ := randint_mem draw (between.1.trans between.2)
    refine ⟨sampled, ?_, ofInteger sampled, (integers sampled).mpr sampledBetween⟩
    rw [sampleFromInterval, hasNoGrid, isNumerical, isNotDouble, isClosed]
    change (do let drawn ← draw.randint lower upper; return (drawn : K) : Except SegmenterError K) = .ok (sampled : K)
    rw [isDrawn]
    rfl

/-! ### All parameters -/

theorem not_isDouble_of_isInteger (isInteger : parameter.isInteger = true) : parameter.isDouble = false := by
  rw [ExperimentParameter.isDouble, of_decide_eq_true isInteger]
  rfl

/-- A numerical parameter is a double or an integer one. -/
theorem isDouble_or_isInteger (isNumerical : parameter.isCategorical = false) :
    parameter.isDouble = true ∨ parameter.isInteger = true := by
  cases isType : parameter.paramType with
  | categorical => simp [isCategorical, isType] at isNumerical
  | double => exact Or.inl (decide_eq_true isType)
  | int => exact Or.inr (decide_eq_true isType)

/-- Whatever the doubles are, the segments of a parameter are disjoint and sampled rightly. -/
theorem segmentsApart (logarithm : Logarithm K) (valid : ValidDomain parameter) (sampleInterval : ℕ)
    (positive : 0 < sampleInterval) : SegmentsApart logarithm parameter sampleInterval := by
  cases isFinite : parameter.isCategorical || parameter.isGrid with
  | true =>
      apply segmentsApart_of_split (nodup_sortedValues valid isFinite) (segmentedIntervals_finite logarithm isFinite)
        (ofType_of_finite isFinite)
      · intro segment
        rw [hasValues]
        rcases Bool.or_eq_true_iff.mp isFinite with isCategorical | isGrid
        · have isType : parameter.paramType = .categorical := of_decide_eq_true isCategorical
          simp [isInteger, isType, pure, Except.pure]
        · simp [isGrid, pure, Except.pure]
      · intro segment draw
        rw [Bool.or_comm] at isFinite
        rw [sampleFromInterval, if_pos isFinite]
  | false =>
      obtain ⟨isNumerical, hasNoGrid⟩ := Bool.or_eq_false_iff.mp isFinite
      cases isDouble_or_isInteger isNumerical with
      | inl isDouble =>
          have notInteger := not_isInteger_of_isDouble isDouble
          apply segmentsApart_of_fences (fencepost_double logarithm positive valid isDouble hasNoGrid).1
            (segmentedIntervals_numerical logarithm isNumerical hasNoGrid)
          · intro value _ _ isInteger
            rw [notInteger] at isInteger
            cases isInteger
          · intro segment
            simp [hasValues, notInteger, pure, Except.pure]
          · intro segment draw min max hasEnds
            rw [sampleFromInterval, hasNoGrid, isNumerical, isDouble, hasEnds]
            rfl
      | inr isInteger =>
          exact segmentsApart_of_integers (fencepost_integer_mono logarithm valid isInteger hasNoGrid)
            (segmentedIntervals_numerical logarithm isNumerical hasNoGrid) isNumerical hasNoGrid isInteger
            (not_isDouble_of_isInteger isInteger)

omit [FloorRing K] in
/-- The value of an integer domain's end. -/
theorem inDomain_maximum (valid : ValidDomain parameter) (isNumerical : parameter.isCategorical = false)
    (hasNoGrid : parameter.isGrid = false) (isInteger : parameter.isInteger = true) :
    InDomain parameter (parameter.bounds.maximum : K) := by
  obtain ⟨minimum, maximum, isBounds, inOrder⟩ := valid.integer isInteger hasNoGrid
  have ofType : OfType parameter (parameter.bounds.maximum : K) := by
    intro _ _ _
    exact ⟨maximum, by rw [isBounds]; exact Rat.cast_intCast maximum⟩
  rw [inDomain_numerical isNumerical hasNoGrid ofType, isBounds]
  exact ⟨Rat.cast_le.mpr (Int.cast_le.mpr inOrder), le_rfl⟩

omit [FloorRing K] in
theorem covers_iff_of_finite (logarithm : Logarithm K) (valid : ValidDomain parameter) (positive : 0 < sampleInterval)
    (isFinite : (parameter.isCategorical || parameter.isGrid) = true) :
    (∀ value : K, InDomain parameter value ↔
        ∃ segment ∈ segmentedIntervals logarithm parameter sampleInterval, value ∈ segment) ↔
      (parameter.valueCount : ℚ) ≤ Binary64.round parameter.valueCount := by
  have distinct := nodup_sortedValues (K := K) valid isFinite
  rw [segmentedIntervals_finite logarithm isFinite, ← endpoint_last _ positive, Nat.cast_le,
    ← length_sortedValues (K := K), ← covered_iff distinct]
  simp only [mem_sortedValues isFinite]
  constructor
  · intro covers value member
    exact (covers value).mp member
  · intro covered value
    exact ⟨covered value, fun isCovered => List.mem_of_mem_take ((mem_splitValues value).mp isCovered)⟩

omit [FloorRing K] in
theorem covers_iff_of_integer (logarithm : Logarithm K) (valid : ValidDomain parameter) (positive : 0 < sampleInterval)
    (isNumerical : parameter.isCategorical = false) (hasNoGrid : parameter.isGrid = false)
    (isInteger : parameter.isInteger = true) :
    (∀ value : K, OfType parameter value → (InDomain parameter value ↔
        ∃ segment ∈ segmentedIntervals logarithm parameter sampleInterval, value ∈ segment)) ↔
      Binary64.round (parameter.bounds.minimum + parameter.length) = parameter.bounds.maximum := by
  have increasing : Monotone (fencepost logarithm parameter sampleInterval) :=
    fencepost_integer_mono logarithm valid isInteger hasNoGrid
  have covered : ∀ value : K, (∃ segment ∈ segmentedIntervals logarithm parameter sampleInterval, value ∈ segment) ↔
      (parameter.bounds.minimum : K) ≤ value ∧
        value ≤ (linearFencepost parameter sampleInterval parameter.length sampleInterval : K) := by
    intro value
    rw [segmentedIntervals_numerical logarithm isNumerical hasNoGrid, mem_intervals_iff increasing positive,
      fencepost_integer logarithm valid isInteger, fencepost_integer logarithm valid isInteger,
      linearFencepost_first isInteger (valid.stored isInteger).1]
  rw [← linearFencepost_last isInteger positive]
  constructor
  · intro covers
    obtain ⟨minimum, maximum, isBounds, inOrder⟩ := valid.integer isInteger hasNoGrid
    obtain ⟨last, isLast⟩ := linearFencepost_last_integer isInteger positive isBounds
    have maximumInDomain := inDomain_maximum (K := K) valid isNumerical hasNoGrid isInteger
    have reached := ((covered _).mp ((covers _ (ofType_of_inDomain maximumInDomain)).mp maximumInDomain))
    have lastOfType : OfType parameter (last : K) := fun _ _ _ => ⟨last, rfl⟩
    have isCovered := (covered (last : K)).mpr (by
      rw [isLast, Rat.cast_intCast] at reached ⊢
      exact ⟨reached.1.trans reached.2, le_rfl⟩)
    have within := (inDomain_numerical isNumerical hasNoGrid lastOfType).mp ((covers _ lastOfType).mpr isCovered)
    apply le_antisymm _ (Rat.cast_le.mp reached.2)
    rw [isLast, ← Rat.cast_le (K := K), Rat.cast_intCast]
    exact within.2
  · intro meets value ofType
    rw [covered, meets]
    exact inDomain_numerical isNumerical hasNoGrid ofType

omit [FloorRing K] in
/-- The segments hold the domain exactly if their ends meet its ends. -/
theorem covers_iff (logarithm : Logarithm K) (valid : ValidDomain parameter) (positive : 0 < sampleInterval) :
    (∀ value : K, OfType parameter value → (InDomain parameter value ↔
        ∃ segment ∈ segmentedIntervals logarithm parameter sampleInterval, value ∈ segment)) ↔
      EndsMeet parameter := by
  cases isFinite : parameter.isCategorical || parameter.isGrid with
  | true =>
      rw [EndsMeet, if_pos isFinite, ← covers_iff_of_finite logarithm valid positive isFinite]
      exact forall_congr' fun value => forall_prop_of_true (ofType_of_finite isFinite value)
  | false =>
      obtain ⟨isNumerical, hasNoGrid⟩ := Bool.or_eq_false_iff.mp isFinite
      rw [EndsMeet, isFinite, if_neg Bool.false_ne_true]
      cases isDouble_or_isInteger isNumerical with
      | inl isDouble =>
          obtain ⟨increasing, first, last⟩ := fencepost_double logarithm positive valid isDouble hasNoGrid
          apply iff_of_true
          · intro value ofType
            rw [segmentedIntervals_numerical logarithm isNumerical hasNoGrid,
              mem_intervals_iff increasing.monotone positive, first, last]
            exact inDomain_numerical isNumerical hasNoGrid ofType
          · intro isInteger
            rw [not_isInteger_of_isDouble isDouble] at isInteger
            cases isInteger
      | inr isInteger =>
          rw [covers_iff_of_integer logarithm valid positive isNumerical hasNoGrid isInteger, forall_prop_of_true isInteger]

omit [FloorRing K] in
/-- A value of a segment is one of the domain: always if the segments are slices of the values, and otherwise if the ends
    meet. -/
theorem inDomain_of_segment (logarithm : Logarithm K) (valid : ValidDomain parameter) (positive : 0 < sampleInterval)
    (ends : (parameter.isCategorical || parameter.isGrid) = false → EndsMeet parameter) {value : K}
    (ofType : OfType parameter value)
    (isIn : ∃ segment ∈ segmentedIntervals logarithm parameter sampleInterval, value ∈ segment) :
    InDomain parameter value := by
  cases isFinite : parameter.isCategorical || parameter.isGrid with
  | true =>
      rw [segmentedIntervals_finite logarithm isFinite, mem_splitValues] at isIn
      exact (mem_sortedValues isFinite value).mpr (List.mem_of_mem_take isIn)
  | false => exact ((covers_iff logarithm valid positive).mpr (ends isFinite) value ofType).mpr isIn

/-- The segments of a parameter are right exactly if their ends meet those of its domain. -/
theorem segmentsRight_iff (logarithm : Logarithm K) (valid : ValidDomain parameter) (positive : 0 < sampleInterval) :
    SegmentsRight logarithm parameter sampleInterval ↔ EndsMeet parameter := by
  rw [← covers_iff logarithm valid positive]
  refine ⟨SegmentsRight.covers, ?_⟩
  intro covers
  have apart := segmentsApart logarithm valid sampleInterval positive
  have inDomain_iff : ∀ segment ∈ segmentedIntervals logarithm parameter sampleInterval, ∀ value : K,
      (InDomain parameter value ∧ value ∈ segment ↔ OfType parameter value ∧ value ∈ segment) := by
    intro segment member value
    constructor
    · intro both
      exact ⟨ofType_of_inDomain both.1, both.2⟩
    · intro both
      exact ⟨(covers value both.1).mpr ⟨segment, member, both.2⟩, both.2⟩
  refine ⟨apart.length, apart.disjoint, covers, ?_, ?_⟩
  · intro segment member
    obtain ⟨found, isFound, exact⟩ := apart.hasValues segment member
    simp only [inDomain_iff segment member]
    exact ⟨found, isFound, exact⟩
  · intro segment member hasValue draw
    simp only [inDomain_iff segment member] at hasValue ⊢
    exact apart.samples segment member hasValue draw

/-! ### Segments with values -/

omit [FloorRing K] in
/-- No segment is without a value exactly if rounding leaves room in each. -/
theorem wellSpaced_iff (logarithm : Logarithm K) (valid : ValidDomain parameter) (positive : 0 < sampleInterval) :
    (∀ segment ∈ segmentedIntervals logarithm parameter sampleInterval,
        ∃ value : K, OfType parameter value ∧ value ∈ segment) ↔
      WellSpaced parameter sampleInterval := by
  cases isFinite : parameter.isCategorical || parameter.isGrid with
  | true =>
      simp only [WellSpaced, isFinite, if_true, ofType_of_finite isFinite, true_and,
        segmentedIntervals_finite logarithm isFinite, ← length_sortedValues (K := K)]
      exact splitValues_nonempty_iff
  | false =>
      obtain ⟨isNumerical, hasNoGrid⟩ := Bool.or_eq_false_iff.mp isFinite
      simp only [WellSpaced, isFinite, Bool.false_eq_true, if_false]
      rw [segmentedIntervals_numerical logarithm isNumerical hasNoGrid]
      cases isDouble_or_isInteger isNumerical with
      | inl isDouble =>
          have notInteger := not_isInteger_of_isDouble isDouble
          apply iff_of_true
          · intro segment member
            obtain ⟨_, value, isIn⟩ :=
              isTrue_of_strictMono (fencepost_double logarithm positive valid isDouble hasNoGrid).1 member
            refine ⟨value, ?_, isIn⟩
            intro _ _ isInteger
            rw [notInteger] at isInteger
            cases isInteger
          · intro index _ isInteger
            rw [notInteger] at isInteger
            cases isInteger
      | inr isInteger =>
          rw [intervalsBetween, List.forall_mem_map]
          simp only [List.mem_range, isInteger, forall_const]
          apply forall₂_congr
          intro index inRange
          have integers : ∀ integer : ℤ, (integer : K) ∈ (if index + 1 = sampleInterval then
                (Segment.rightOpen (fencepost logarithm parameter sampleInterval index)
                  (fencepost logarithm parameter sampleInterval (index + 1))).closure
              else Segment.rightOpen (fencepost logarithm parameter sampleInterval index)
                (fencepost logarithm parameter sampleInterval (index + 1))) ↔
              linearFencepost parameter sampleInterval parameter.length index ≤ integer ∧
                if index + 1 = sampleInterval then
                  integer ≤ linearFencepost parameter sampleInterval parameter.length (index + 1)
                else integer < linearFencepost parameter sampleInterval parameter.length (index + 1) := by
            intro integer
            rw [fencepost_integer logarithm valid isInteger, fencepost_integer logarithm valid isInteger,
              ← Rat.cast_intCast]
            split
            · rw [Segment.closure, Segment.mem_closed, Rat.cast_le, Rat.cast_le]
            · rw [Segment.mem_rightOpen, Rat.cast_le, Rat.cast_lt]
          constructor
          · intro hasValue
            obtain ⟨value, ofType, isIn⟩ := hasValue
            obtain ⟨integer, rfl⟩ := ofType isNumerical hasNoGrid isInteger
            exact ⟨integer, (integers integer).mp isIn⟩
          · intro hasInteger
            obtain ⟨integer, between⟩ := hasInteger
            exact ⟨integer, fun _ _ _ => ⟨integer, rfl⟩, (integers integer).mpr between⟩

omit [IsStrictOrderedRing K] [FloorRing K] in
theorem hasAtLeast_of_strictMono {values : ℕ → K} (increasing : StrictMono values) {count : ℕ}
    (areValues : ∀ index < count, InDomain parameter (values index)) : HasAtLeast K count parameter := by
  refine ⟨(Finset.range count).image values, ?_, ?_⟩
  · rw [Finset.card_image_of_injective _ increasing.injective, Finset.card_range]
  · intro value member
    obtain ⟨index, inRange, rfl⟩ := Finset.mem_image.mp member
    exact areValues index (Finset.mem_range.mp inRange)

end Kinds

end

end Zigopt.Experiment
