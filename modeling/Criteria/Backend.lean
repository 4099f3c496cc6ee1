import Criteria.Aggregate
import Criteria.Condition
import Criteria.Page

/-!
This module contains what it takes to be a backend, which turns conditions and whole queries into a form
that can be executed elsewhere, and the compilation of conditions for a backend.
-/

namespace Criteria

/--
A backend for records of type `R`. `combine` is called with two or more predicates, and `compile` gets no
predicate if there is no restriction.
-/
structure Backend (R : Type) where
  Scope : Type
  Predicate : Type
  CompiledAggregate : Type
  CompiledSort : Type
  CompiledQuery : Type
  comparison : Field R → Operator → List Value → Except Error Predicate
  combine : Connective → List Predicate → Predicate
  aggregate : Aggregate R → Except Error CompiledAggregate
  sort : SortOrder R → Except Error CompiledSort
  compile : Scope → Option Predicate → List CompiledAggregate → Option Page →
    Except Error CompiledQuery

def Backend.ofLeaf {R : Type} (backend : Backend R) (leaf : Leaf R) :
    Except Error backend.Predicate :=
  backend.comparison leaf.field leaf.operator leaf.operands

def Condition.compile {R : Type} (condition : Condition R) (backend : Backend R) :
    Except Error (Option backend.Predicate) :=
  Formula.compile backend.ofLeaf backend.combine condition

end Criteria
