/-
Module: Zigopt.Experiment.Meta
Layer: Experiment
Purpose: What an experiment stores about its parameters and conditionals, and the views the proxies of
  `experiment/model.py` give of it.
Main exports: ExperimentParameter, ExperimentMeta, ExperimentParameter.validAssignment
-/
import Mathlib.Data.Rat.Defs
import Mathlib.Data.List.Basic
import Mathlib.Algebra.Order.Ring.Unbundled.Rat

namespace Zigopt.Experiment

/-- The types of experiment that are validated differently. -/
inductive ExperimentType where
  | offline
  | random
  | grid
deriving DecidableEq, Repr

inductive ExperimentParameterType where
  | double
  | int
  | categorical
deriving DecidableEq, Repr

def ExperimentParameterType.text : ExperimentParameterType → String
  | .double => "double"
  | .int => "int"
  | .categorical => "categorical"

inductive Transformation where
  | none
  | log
deriving DecidableEq, Repr

def Transformation.text : Transformation → String
  | .none => "none"
  | .log => "log"

structure Bounds where
  minimum : ℚ := 0
  maximum : ℚ := 0
deriving DecidableEq, Repr

/-- The priors a request can set; each type comes with its own parameters. -/
inductive Prior where
  | normal (mean scale : ℚ)
  | beta (shapeA shapeB : ℚ)
deriving DecidableEq, Repr

/-- A category with its index, which an update never gives to another one. -/
structure ExperimentCategoricalValue where
  name : String
  enumIndex : Nat
  deleted : Bool := false
deriving DecidableEq, Repr

/-- The values a conditional must have, as enum indices of the conditional. -/
structure ParameterCondition where
  name : String
  values : List ℚ
deriving DecidableEq, Repr

/-- The protobuf of a parameter, with protobuf's defaults for what is not set. -/
structure ExperimentParameter where
  name : String := ""
  bounds : Bounds := {}
  paramType : ExperimentParameterType := .double
  allCategoricalValues : List ExperimentCategoricalValue := []
  deleted : Bool := false
  replacementValueIfMissing : Option ℚ := none
  gridValues : List ℚ := []
  conditions : List ParameterCondition := []
  prior : Option Prior := none
  transformation : Transformation := .none
deriving DecidableEq, Repr

structure ExperimentConditionalValue where
  name : String
  enumIndex : Nat
deriving DecidableEq, Repr

/-- A conditional and the values that it chooses among. -/
structure ExperimentConditional where
  name : String
  values : List ExperimentConditionalValue
deriving DecidableEq, Repr

structure Term where
  name : String
  coeff : ℚ
deriving DecidableEq, Repr

structure ExperimentConstraint where
  type : String
  terms : List Term
  rhs : ℚ
deriving DecidableEq, Repr

/-- The fields of the experiment's protobuf that creating, updating and sampling read. -/
structure ExperimentMeta where
  experimentType : ExperimentType := .offline
  allParametersUnsorted : List ExperimentParameter := []
  conditionals : List ExperimentConditional := []
  constraints : List ExperimentConstraint := []
  /-- That of a grid; a budget that the request gives is read with its other sections. -/
  observationBudget : Option Nat := none
deriving DecidableEq, Repr

namespace ExperimentParameter

def isCategorical (parameter : ExperimentParameter) : Bool := parameter.paramType = .categorical
def isInteger (parameter : ExperimentParameter) : Bool := parameter.paramType = .int
def isGrid (parameter : ExperimentParameter) : Bool := parameter.gridValues.length > 0

/-- The values that are not deleted. -/
def activeCategoricalValues (parameter : ExperimentParameter) : List ExperimentCategoricalValue :=
  parameter.allCategoricalValues.filter fun value => !value.deleted

/-- `all_categorical_values_map.get(name)`: of two values with one name the map has the later one. -/
def categoricalValueNamed (parameter : ExperimentParameter) (name : String) :
    Option ExperimentCategoricalValue :=
  parameter.allCategoricalValues.reverse.find? fun value => value.name = name

/-- `valid_assignment`: an active category, a grid value, or a number within the bounds. -/
def validAssignment (parameter : ExperimentParameter) (assignment : ℚ) : Bool :=
  if parameter.isCategorical then
    assignment ∈ parameter.activeCategoricalValues.map fun value => (value.enumIndex : ℚ)
  else if parameter.isGrid then
    assignment ∈ parameter.gridValues
  else
    parameter.bounds.minimum ≤ assignment && assignment ≤ parameter.bounds.maximum

def valueNames (parameter : ExperimentParameter) : List String :=
  parameter.allCategoricalValues.map (·.name)

def enumIndices (parameter : ExperimentParameter) : List Nat :=
  parameter.allCategoricalValues.map (·.enumIndex)

def activeValueNames (parameter : ExperimentParameter) : List String :=
  parameter.activeCategoricalValues.map (·.name)

end ExperimentParameter

namespace ExperimentMeta

/-- The names of all parameters, deleted ones included. -/
def parameterNames (experiment : ExperimentMeta) : List String :=
  experiment.allParametersUnsorted.map (·.name)

def activeParameterNames (experiment : ExperimentMeta) : List String :=
  (experiment.allParametersUnsorted.filter fun parameter => !parameter.deleted).map (·.name)

/-- The names of the conditionals. -/
def conditionalNames (experiment : ExperimentMeta) : List String :=
  experiment.conditionals.map (·.name)

end ExperimentMeta

end Zigopt.Experiment
