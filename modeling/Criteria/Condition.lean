import Criteria.Formula
import Criteria.Leaf

/-!
This module contains conditions, which are formulas over leaves, and their direct evaluation.
-/

namespace Criteria

abbrev Condition (R : Type) := Formula (Leaf R)

namespace Condition

variable {R : Type}

def unrestricted : Condition R := .group .and []

def leaf (field : Field R) (operator : Operator) (operands : List Value) :
    Except Error (Condition R) :=
  (Leaf.make field operator operands).map .atom

def isMatch (condition : Condition R) (record : R) : Bool :=
  condition.holds fun leaf => leaf.isMatch record

def same (a b : Condition R) : Bool :=
  Formula.isEqv Leaf.same a b

def IsValid (condition : Condition R) : Prop :=
  ∀ leaf ∈ condition.atoms, Leaf.IsValid leaf.field leaf.operator leaf.operands

end Condition

end Criteria
