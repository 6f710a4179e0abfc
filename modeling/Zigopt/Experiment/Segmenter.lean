/-
Module: Zigopt.Experiment.Segmenter
Layer: Experiment
Purpose: Segments of the domain of a parameter: half-open intervals between fenceposts for a numerical parameter, slices
  of the sorted values for a categorical parameter or one with a grid. Split points and the fenceposts of an integer
  parameter are doubles; a real range is taken over exact numbers, of an ordered field, which is the rationals unless
  a logarithm is taken.
Main exports: Segment, Draw, segmentedIntervals, hasValues, sampleFromInterval, pickValue, InDomain, ValidDomain,
  SegmentsRight, EndsMeet, HasAtLeast
-/
import Mathlib.Algebra.Order.Field.Basic
import Mathlib.Data.Finset.Card
import Mathlib.Data.List.Sort
import Mathlib.Data.Rat.Cast.Order
import Zigopt.Experiment.Meta
import Zigopt.Lib.Binary64
import Zigopt.Lib.Segments

namespace Zigopt.Experiment

/-- `math.log10` and `10 **`. -/
structure Logarithm (K : Type) [Zero K] [Preorder K] where
  log10 : K → K
  pow10 : K → K
  pow10_log10 : ∀ number, 0 < number → pow10 (log10 number) = number
  strictMono_pow10 : StrictMono pow10

/-- A `RightOpenInterval`, a `ClosedInterval`, or a frozenset of values. -/
inductive Segment (K : Type) where
  | rightOpen (min max : K)
  | closed (min max : K)
  | values (members : List K)
deriving DecidableEq

/-- A number drawn at random, from which `random` makes its choices: any number for a choice or a `randint`, and one
    from the half-open unit interval for `uniform`. -/
structure Draw (K : Type) [Zero K] [One K] [Preorder K] where
  number : ℕ
  unit : K
  nonneg : 0 ≤ unit
  lt_one : unit < 1

inductive SegmenterError where
  | attributeError
  | indexError
  | valueError
deriving DecidableEq, Repr

section

variable {K : Type} [Field K] [LinearOrder K]

namespace Segment

/-- `in`. -/
def Contains : Segment K → K → Prop
  | .rightOpen min max, value => min ≤ value ∧ value < max
  | .closed min max, value => min ≤ value ∧ value ≤ max
  | .values members, value => value ∈ members

instance : Membership K (Segment K) := ⟨Contains⟩

instance (value : K) (segment : Segment K) : Decidable (value ∈ segment) :=
  match segment with
  | .rightOpen min max => inferInstanceAs (Decidable (min ≤ value ∧ value < max))
  | .closed min max => inferInstanceAs (Decidable (min ≤ value ∧ value ≤ max))
  | .values members => inferInstanceAs (Decidable (value ∈ members))

def closure : Segment K → Segment K
  | .rightOpen min max => .closed min max
  | .closed min max => .closed min max
  | .values members => .values members

/-- `bool`. -/
def isTrue : Segment K → Bool
  | .rightOpen min max => min < max
  | .closed min max => min ≤ max
  | .values members => members ≠ []

/-- `tuple`; an interval is a named tuple of its ends. -/
def toTuple : Segment K → List K
  | .rightOpen min max => [min, max]
  | .closed min max => [min, max]
  | .values members => members

/-- The ends of an interval; a frozenset has none. -/
def ends : Segment K → Except SegmenterError (K × K)
  | .rightOpen min max => .ok (min, max)
  | .closed min max => .ok (min, max)
  | .values _ => .error .attributeError

omit [Field K] in
@[simp] theorem mem_rightOpen {min max value : K} :
    value ∈ (rightOpen min max : Segment K) ↔ min ≤ value ∧ value < max := Iff.rfl

omit [Field K] in
@[simp] theorem mem_closed {min max value : K} :
    value ∈ (closed min max : Segment K) ↔ min ≤ value ∧ value ≤ max := Iff.rfl

omit [Field K] in
@[simp] theorem mem_values {members : List K} {value : K} : value ∈ (values members : Segment K) ↔ value ∈ members :=
  Iff.rfl

end Segment

/-! ### Draws -/

namespace Draw

/-- `non_crypto_random.choice`. -/
def choice {α : Type} (draw : Draw K) (items : List α) : Except SegmenterError α :=
  match items[draw.number % items.length]? with
  | some item => .ok item
  | none => .error .indexError

/-- `non_crypto_random.uniform`. -/
def uniform (draw : Draw K) (first last : K) : K :=
  first + (last - first) * draw.unit

/-- `non_crypto_random.randint`, which includes the upper bound. -/
def randint (draw : Draw K) (lower upper : ℤ) : Except SegmenterError ℤ :=
  if lower ≤ upper then .ok (lower + (draw.number : ℤ) % (upper - lower + 1)) else .error .valueError

end Draw

/-! ### The segmenter -/

namespace ExperimentParameter

def hasLogTransformation (parameter : ExperimentParameter) : Bool := parameter.transformation = .log

/-- Whether the parameter ranges over doubles. -/
def isDouble (parameter : ExperimentParameter) : Bool := parameter.paramType = .double

/-- The enum indices of the active values, in order. -/
def sortedIndices (parameter : ExperimentParameter) : List ℕ :=
  (parameter.activeCategoricalValues.map (·.enumIndex)).insertionSort (· ≤ ·)

end ExperimentParameter

open ExperimentParameter

/-- A split point of so many values, a double, rounded to a place among them. -/
def endpoint (length sampleInterval index : ℕ) : ℕ :=
  (Rounding.roundHalfEven
    (Binary64.round (Binary64.round ((index : ℚ) / sampleInterval) * Binary64.round length))).toNat

/-- The frozensets of the values between the rounded split points. -/
def splitValues (sortedValues : List K) (sampleInterval : ℕ) : List (Segment K) :=
  (Segments.slices sortedValues (endpoint sortedValues.length sampleInterval) sampleInterval).map .values

/-- What becomes of the result of an operation: for an integer parameter the double next to it. -/
def ExperimentParameter.arithmetic (parameter : ExperimentParameter) : ℚ → ℚ :=
  if parameter.isInteger then Binary64.round else id

/-- `parameter.bounds.maximum - parameter.bounds.minimum`. -/
def ExperimentParameter.length (parameter : ExperimentParameter) : ℚ :=
  parameter.arithmetic (parameter.bounds.maximum - parameter.bounds.minimum)

def linearFencepost (parameter : ExperimentParameter) (sampleInterval : ℕ) (length : ℚ) (index : ℕ) : ℚ :=
  parameter.arithmetic (parameter.bounds.minimum +
    parameter.arithmetic (parameter.arithmetic ((index : ℚ) / sampleInterval) * length))

def logFencepost (logarithm : Logarithm K) (logMin : K) (sampleInterval : ℕ) (length : K) (index : ℕ) : K :=
  logarithm.pow10 (logMin + (index : K) / sampleInterval * length)

/-- The intervals between fenceposts, of which the last one is closed. -/
def intervalsBetween (fencepost : ℕ → K) (sampleInterval : ℕ) : List (Segment K) :=
  (List.range sampleInterval).map fun index =>
    let interval := Segment.rightOpen (fencepost index) (fencepost (index + 1))
    if index + 1 = sampleInterval then interval.closure else interval

/-- `segmented_intervals`. -/
def segmentedIntervals (logarithm : Logarithm K) (parameter : ExperimentParameter) (sampleInterval : ℕ) :
    List (Segment K) :=
  if parameter.isCategorical then
    splitValues (parameter.sortedIndices.map Nat.cast) sampleInterval
  else if parameter.isGrid then
    splitValues ((parameter.gridValues.insertionSort (· ≤ ·)).map Rat.cast) sampleInterval
  else if !parameter.hasLogTransformation then
    intervalsBetween (fun index => (linearFencepost parameter sampleInterval parameter.length index : K)) sampleInterval
  else
    let logMin := logarithm.log10 parameter.bounds.minimum
    let logMax := logarithm.log10 parameter.bounds.maximum
    let length := logMax - logMin
    intervalsBetween (logFencepost logarithm logMin sampleInterval length) sampleInterval

section

variable [FloorRing K]

/-- `to_closed_integer_interval`. -/
def toClosedIntegerInterval (interval : Segment K) : Except SegmenterError (ℤ × ℤ) := do
  let (min, max) ← interval.ends
  let lowerBound := ⌈min⌉
  let upperBound := ⌊max⌋
  return (if (lowerBound : K) ∈ interval then lowerBound else lowerBound + 1,
    if (upperBound : K) ∈ interval then upperBound else upperBound - 1)

/-- `has_values`. -/
def hasValues (parameter : ExperimentParameter) (interval : Segment K) : Except SegmenterError Bool :=
  if parameter.isInteger && !parameter.isGrid then do
    let (lower, upper) ← toClosedIntegerInterval interval
    return decide (lower ≤ upper)
  else
    return interval.isTrue

/-- `sample_from_interval`. -/
def sampleFromInterval (parameter : ExperimentParameter) (interval : Segment K) (draw : Draw K) :
    Except SegmenterError K :=
  if parameter.isGrid || parameter.isCategorical then
    draw.choice interval.toTuple
  else if parameter.isDouble then do
    let (min, max) ← interval.ends
    return draw.uniform min max
  else do
    let (lower, upper) ← toClosedIntegerInterval interval
    let sampled ← draw.randint lower upper
    return (sampled : K)

/-- `random_value_for_parameter`. -/
def randomValueForParameter (logarithm : Logarithm K) (parameter : ExperimentParameter) (draw : Draw K) :
    Except SegmenterError K :=
  if parameter.isGrid then do
    let value ← draw.choice parameter.gridValues
    return (value : K)
  else if parameter.isCategorical then do
    let value ← draw.choice (parameter.activeCategoricalValues.map (·.enumIndex))
    return (value : K)
  else if parameter.isInteger then do
    let sampled ← draw.randint (Rounding.roundHalfEven parameter.bounds.minimum)
      (Rounding.roundHalfEven parameter.bounds.maximum)
    return (sampled : K)
  else if parameter.hasLogTransformation then
    return logarithm.pow10
      (draw.uniform (logarithm.log10 parameter.bounds.minimum) (logarithm.log10 parameter.bounds.maximum))
  else
    return draw.uniform (parameter.bounds.minimum : K) parameter.bounds.maximum

/-- `pick_value`, with one draw for the interval and one for the value. -/
def pickValue (logarithm : Logarithm K) (parameter : ExperimentParameter) (intervals : List (Segment K))
    (first second : Draw K) : Except SegmenterError K :=
  if intervals = [] then
    randomValueForParameter logarithm parameter first
  else do
    let interval ← first.choice intervals
    sampleFromInterval parameter interval second

end

/-! ### What the segments are to be -/

/-- The values a parameter can be assigned. -/
def InDomain (parameter : ExperimentParameter) (value : K) : Prop :=
  if parameter.isCategorical then
    ∃ categoricalValue ∈ parameter.activeCategoricalValues, value = (categoricalValue.enumIndex : K)
  else if parameter.isGrid then
    ∃ gridValue ∈ parameter.gridValues, value = (gridValue : K)
  else
    ((parameter.bounds.minimum : K) ≤ value ∧ value ≤ parameter.bounds.maximum) ∧
      (parameter.isInteger = true → ∃ integer : ℤ, value = integer)

/-- An integer where the parameter is one without a grid, and any number otherwise. -/
def OfType (parameter : ExperimentParameter) (value : K) : Prop :=
  parameter.isCategorical = false → parameter.isGrid = false → parameter.isInteger = true →
    ∃ integer : ℤ, value = integer

/-- What the handlers require of a parameter, whose bounds are stored as doubles. -/
structure ValidDomain (parameter : ExperimentParameter) : Prop where
  categorical : parameter.isCategorical = true → (parameter.activeCategoricalValues.map (·.enumIndex)).Nodup
  grid : parameter.isGrid = true → parameter.gridValues.Nodup
  integer : parameter.isInteger = true → parameter.isGrid = false →
    ∃ minimum maximum : ℤ, parameter.bounds = ⟨minimum, maximum⟩ ∧ minimum ≤ maximum
  stored : parameter.isInteger = true → Binary64.round parameter.bounds.minimum = parameter.bounds.minimum ∧
    Binary64.round parameter.bounds.maximum = parameter.bounds.maximum
  double : parameter.isDouble = true → parameter.isGrid = false → parameter.bounds.minimum < parameter.bounds.maximum
  log : parameter.hasLogTransformation = true →
    parameter.isDouble = true ∧ (parameter.isGrid = false → 0 < parameter.bounds.minimum)

/-- The segments are disjoint, those with values are told from those without, and a sample from one with values is a
    value in it. -/
structure SegmentsApart [FloorRing K] (logarithm : Logarithm K) (parameter : ExperimentParameter)
    (sampleInterval : ℕ) : Prop where
  length : (segmentedIntervals logarithm parameter sampleInterval).length = sampleInterval
  disjoint : Segments.Disjoint (α := K) (segmentedIntervals logarithm parameter sampleInterval)
  hasValues : ∀ segment ∈ segmentedIntervals logarithm parameter sampleInterval,
    ∃ found, hasValues parameter segment = .ok found ∧
      (found = true ↔ ∃ value : K, OfType parameter value ∧ value ∈ segment)
  samples : ∀ segment ∈ segmentedIntervals logarithm parameter sampleInterval,
    (∃ value : K, OfType parameter value ∧ value ∈ segment) → ∀ draw : Draw K,
      ∃ value, sampleFromInterval parameter segment draw = .ok value ∧ OfType parameter value ∧ value ∈ segment

/-- The segments are disjoint and hold the domain, those with values of the domain are told from those without, and a
    sample from one with values is a value of the domain in it. -/
structure SegmentsRight [FloorRing K] (logarithm : Logarithm K) (parameter : ExperimentParameter)
    (sampleInterval : ℕ) : Prop where
  length : (segmentedIntervals logarithm parameter sampleInterval).length = sampleInterval
  disjoint : Segments.Disjoint (α := K) (segmentedIntervals logarithm parameter sampleInterval)
  covers : ∀ value : K, OfType parameter value →
    (InDomain parameter value ↔ ∃ segment ∈ segmentedIntervals logarithm parameter sampleInterval, value ∈ segment)
  hasValues : ∀ segment ∈ segmentedIntervals logarithm parameter sampleInterval,
    ∃ found, hasValues parameter segment = .ok found ∧
      (found = true ↔ ∃ value : K, InDomain parameter value ∧ value ∈ segment)
  samples : ∀ segment ∈ segmentedIntervals logarithm parameter sampleInterval,
    (∃ value : K, InDomain parameter value ∧ value ∈ segment) → ∀ draw : Draw K,
      ∃ value, sampleFromInterval parameter segment draw = .ok value ∧ InDomain parameter value ∧ value ∈ segment

/-- How many values a categorical parameter or one with a grid has. -/
def ExperimentParameter.valueCount (parameter : ExperimentParameter) : ℕ :=
  if parameter.isCategorical then parameter.activeCategoricalValues.length else parameter.gridValues.length

/-- The last split point is not before the last value; the last fencepost of an integer range is its maximum. -/
def EndsMeet (parameter : ExperimentParameter) : Prop :=
  if parameter.isCategorical || parameter.isGrid then
    (parameter.valueCount : ℚ) ≤ Binary64.round parameter.valueCount
  else
    parameter.isInteger = true → Binary64.round (parameter.bounds.minimum + parameter.length) = parameter.bounds.maximum

/-- Rounding leaves a value between split points that follow each other, and an integer between fenceposts. -/
def WellSpaced (parameter : ExperimentParameter) (sampleInterval : ℕ) : Prop :=
  ∀ index < sampleInterval,
    if parameter.isCategorical || parameter.isGrid then
      endpoint parameter.valueCount sampleInterval index < parameter.valueCount ∧
        endpoint parameter.valueCount sampleInterval index < endpoint parameter.valueCount sampleInterval (index + 1)
    else
      parameter.isInteger = true → ∃ integer : ℤ,
        linearFencepost parameter sampleInterval parameter.length index ≤ integer ∧
          if index + 1 = sampleInterval then
            integer ≤ linearFencepost parameter sampleInterval parameter.length (index + 1)
          else
            integer < linearFencepost parameter sampleInterval parameter.length (index + 1)

/-- The domain has at least so many values. -/
def HasAtLeast (K : Type) [Field K] [LinearOrder K] (count : ℕ) (parameter : ExperimentParameter) : Prop :=
  ∃ values : Finset K, values.card = count ∧ ∀ value ∈ values, InDomain parameter value

end

end Zigopt.Experiment
