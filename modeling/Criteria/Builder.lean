import Criteria.Condition
import Criteria.Registry

/-!
This module contains builders, which put a condition together step by step. The first step that fails
decides the error, and the steps after it change nothing.
-/

namespace Criteria

structure Builder (R : Type) where
  registry : Registry R
  connective : Connective
  children : Except Error (List (Condition R)) := .ok []

inductive BuilderStep (R : Type) where
  | loose (name : String) (operator : Operator) (operands : List Value)
  | typed (type : ValueType) (handle : Handle R type) (operator : Operator) (operands : List Value)
  | condition (condition : Condition R)
  | nested (connective : Connective) (steps : List (BuilderStep R))

namespace Builder

variable {R : Type}

def start (registry : Registry R) (connective : Connective) : Builder R :=
  { registry, connective }

def push (builder : Builder R) (child : Except Error (Condition R)) : Builder R :=
  { builder with
    children := do
      let children ← builder.children
      return children ++ [← child] }

def loose (builder : Builder R) (name : String) (operator : Operator) (operands : List Value) :
    Builder R :=
  builder.push do Condition.leaf (← builder.registry.lookup name) operator operands

def typed (builder : Builder R) {type : ValueType} (handle : Handle R type) (operator : Operator)
    (operands : List Value) : Builder R :=
  builder.push (Condition.leaf handle.field operator operands)

def build (builder : Builder R) : Except Error (Condition R) := do
  return .group builder.connective (← builder.children)

mutual

/--
Take a step. A nested scope becomes one child, even if it is empty.
-/
def step (builder : Builder R) : BuilderStep R → Builder R
  | .loose name operator operands => builder.loose name operator operands
  | .typed _ handle operator operands => builder.typed handle operator operands
  | .condition condition => builder.push (.ok condition)
  | .nested connective steps =>
    builder.push ((start builder.registry connective).run steps).build

def run (builder : Builder R) : List (BuilderStep R) → Builder R
  | [] => builder
  | step :: steps => (builder.step step).run steps

end

end Builder

end Criteria
