import Criteria.Memory.Aggregation
import Criteria.Pattern.Regex
import Criteria.Query

/-!
This module contains the backend that executes queries on lists of records. Its predicates are tests of
records. Patterns are compiled to regular expressions once for each predicate.
-/

namespace Criteria.Memory

structure Selection (R : Type) where
  scope : List (R → Bool)
  predicate : Option (R → Bool)
  aggregates : List (Aggregate R)
  page : Option Page

variable {R : Type}

def patternRegex (field : Field R) (operator : Operator) (operands : List Value) :
    Except Error Regex :=
  match operands.head?.bind Value.text? with
  | some pattern => .ok (Regex.ofPattern (Pattern.ofText pattern))
  | none => .error (.missingPattern field.name operator)

/--
The test for a pattern match. What is not a text neither is like a pattern nor is unlike it.
-/
def patternTest (field : Field R) (regex : Regex) (expected : Bool) (record : R) : Bool :=
  match (field.read record).bind Value.text? with
  | some text => regex.isMatch text.toList = expected
  | none => false

def comparison (field : Field R) (operator : Operator) (operands : List Value) :
    Except Error (R → Bool) :=
  match operator with
  | .like => do return patternTest field (← patternRegex field operator operands) true
  | .notLike => do return patternTest field (← patternRegex field operator operands) false
  | _ => return fun record => operator.evaluate (field.read record) operands

def combine (connective : Connective) (tests : List (R → Bool)) (record : R) : Bool :=
  match connective with
  | .and => tests.all fun test => test record
  | .or => tests.any fun test => test record

@[reducible]
def backend (R : Type) : Backend R where
  Scope := List (R → Bool)
  Predicate := R → Bool
  CompiledAggregate := Aggregate R
  CompiledSort := SortOrder R
  CompiledQuery := Selection R
  comparison := comparison
  combine := combine
  aggregate := .ok
  sort := .ok
  compile := fun scope predicate aggregates page => .ok ⟨scope, predicate, aggregates, page⟩

namespace Selection

def isMatch (selection : Selection R) (record : R) : Bool :=
  (selection.scope.all fun test => test record) && selection.predicate.all fun test => test record

def matching (selection : Selection R) (records : List R) : List R :=
  records.filter selection.isMatch

def rows (selection : Selection R) (sort : Option (SortOrder R)) (records : List R) : List R :=
  let matching := selection.matching records
  let sorted := match sort with
    | none => matching
    | some order => order.sort matching
  match selection.page with
  | none => sorted
  | some page => page.apply sorted

def count (selection : Selection R) (records : List R) : Nat :=
  records.countP selection.isMatch

def aggregateRows (selection : Selection R) (records : List R) : List Aggregate.Row :=
  let matching := selection.matching records
  selection.aggregates.flatMap fun aggregate => aggregate.rows matching

end Selection

end Criteria.Memory
