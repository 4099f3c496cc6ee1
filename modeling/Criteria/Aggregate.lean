import Criteria.Sort.Order

/-!
This module contains aggregates, which condense the values of a field over all records or over the records
of each group.
-/

namespace Criteria

inductive AggregateFunction where
  | count
  | sum
  | avg
  | min
  | max
  deriving DecidableEq

namespace AggregateFunction

def toText : AggregateFunction → String
  | count => "count"
  | sum => "sum"
  | avg => "avg"
  | min => "min"
  | max => "max"

def all : List AggregateFunction := [count, sum, avg, min, max]

def ofText? (name : String) : Option AggregateFunction :=
  all.find? fun function => function.toText = name

def expectation? : AggregateFunction → Option Expectation
  | count => none
  | sum | avg => some (.ofType .number)
  | min | max => some (.ofClass .orderable)

end AggregateFunction

def Expectation.admits : Expectation → ValueType → Bool
  | ofType expected, type => type = expected
  | ofClass valueClass, type => valueClass.admits type

/--
A function of the values of a field, for each group of records that agree in the grouping fields. The results
may be ordered by value.
-/
structure Aggregate (R : Type) where
  function : AggregateFunction
  field : Field R
  groupBy : List (Field R) := []
  order : Option Direction := none

namespace Aggregate

variable {R : Type}

def validate (aggregate : Aggregate R) : Except Error Unit :=
  match aggregate.function.expectation? with
  | none => .ok ()
  | some expected =>
    if expected.admits aggregate.field.type then .ok ()
    else .error (.typeMismatch aggregate.field.name aggregate.field.type expected)

def same (a b : Aggregate R) : Bool :=
  a.field.same b.field && a.function = b.function && a.groupBy.isEqv b.groupBy Field.same &&
    a.order = b.order

end Aggregate

abbrev AggregateList (R : Type) := List (Aggregate R)

def AggregateList.validate {R : Type} (aggregates : AggregateList R) : Except Error Unit :=
  aggregates.forM Aggregate.validate

end Criteria
