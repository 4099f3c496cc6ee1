import Criteria.Aggregate

/-!
This module contains the computation of aggregates over lists of records.
-/

namespace Criteria

namespace AggregateFunction

def numbers (values : List Value) : List Number :=
  values.filterMap Value.number?

/--
Add signed words. There is no sum if a number is of another kind, or if a sum on the way is too great for a
word.
-/
def sumSigned? (numbers : List Number) : Option Int64 :=
  numbers.foldlM (fun total number =>
    match number with
    | .signed n =>
      let sum := total.toInt + n.toInt
      if Text.fitsInt64 sum then some (Int64.ofInt sum) else none
    | _ => none) 0

/--
The sum of the numbers among values, if there are any. It is a signed word if it can be, and a binary64 number
otherwise.
-/
def sumOf? (values : List Value) : Option Number :=
  match numbers values with
  | [] => none
  | numbers =>
    match sumSigned? numbers with
    | some total => some (.signed total)
    | none => some (.float (Binary64.sum (numbers.map Number.toBinary64)))

def meanOf? (values : List Value) : Option Number :=
  match numbers values with
  | [] => none
  | numbers =>
    some (.float ((Binary64.sum (numbers.map Number.toBinary64)).divideByCount numbers.length))

/--
The value that comes first in a direction, and the earlier one of two that are equal or not comparable.
-/
def extreme? (direction : Direction) : List Value → Option Value
  | [] => none
  | first :: values =>
    some (values.foldl (fun best candidate =>
      if ((candidate.compare best).map direction.apply).any Ordering.isLT then candidate
      else best) first)

def compute (function : AggregateFunction) (values : List Value) : Option Value :=
  match function with
  | count => some (.number (.unsigned (UInt64.ofNat values.length)))
  | sum => (sumOf? values).map .number
  | avg => (meanOf? values).map .number
  | min => extreme? .ascending values
  | max => extreme? .descending values

end AggregateFunction

namespace Aggregate

variable {R : Type}

abbrev GroupKey := List (Option Value)

def sameKey (a b : GroupKey) : Bool :=
  a.isEqv b fun x y =>
    match x, y with
    | none, none => true
    | some x, some y => x.same y
    | _, _ => false

structure Row where
  function : AggregateFunction
  field : String
  group : GroupKey
  value : Option Value

def keyOf (aggregate : Aggregate R) (record : R) : GroupKey :=
  aggregate.groupBy.map fun field => field.read record

def addToGroup (key : GroupKey) (value : Option Value) :
    List (GroupKey × List Value) → List (GroupKey × List Value)
  | [] => [(key, value.toList)]
  | (other, values) :: groups =>
    if sameKey other key then (other, values ++ value.toList) :: groups
    else (other, values) :: addToGroup key value groups

/--
The groups of records in the order of their first records, each with the values of the field. Without
grouping fields there is one group even for no records.
-/
def groups (aggregate : Aggregate R) (records : List R) : List (GroupKey × List Value) :=
  let groups := records.foldl
    (fun groups record =>
      addToGroup (aggregate.keyOf record) (aggregate.field.read record) groups) []
  if groups.isEmpty && aggregate.groupBy.isEmpty then [([], [])] else groups

def unorderedRows (aggregate : Aggregate R) (records : List R) : List Row :=
  (aggregate.groups records).map fun group =>
    { function := aggregate.function
      field := aggregate.field.name
      group := group.1
      value := aggregate.function.compute group.2 }

def rows (aggregate : Aggregate R) (records : List R) : List Row :=
  let rows := aggregate.unorderedRows records
  match aggregate.order with
  | none => rows
  | some direction => stableSort (fun a b => direction.compareValues a.value b.value) rows

end Aggregate

end Criteria
