import Criteria.Query
import Criteria.Sql.Predicate

/-!
This module contains the backend that writes queries as SQL. A field is a column of the same name unless it is
mapped to another. The scope of a query is a list of conditions in SQL, which are taken as they are.
-/

namespace Criteria.Sql

abbrev ColumnMap := List (String × String)

def ColumnMap.column (columns : ColumnMap) (field : String) : String :=
  (columns.lookup field).getD field

structure SelectedAggregate where
  expression : String
  groupBy : List String
  order : Option Direction

abbrev OrderKeys := List String

structure Statement where
  scope : List String
  predicate : Option Predicate
  aggregates : List SelectedAggregate
  page : Option Page

def functionName : AggregateFunction → String
  | .count => "COUNT"
  | .sum => "SUM"
  | .avg => "AVG"
  | .min => "MIN"
  | .max => "MAX"

def directionKeyword : Direction → String
  | .ascending => "ASC"
  | .descending => "DESC"

def orderKey (expression : String) (direction : Direction) : String :=
  expression ++ " " ++ directionKeyword direction

def OrderKeys.clause (keys : OrderKeys) : String :=
  if keys.isEmpty then "" else "ORDER BY " ++ ", ".intercalate keys

variable {R : Type}

def comparison (columns : ColumnMap) (field : Field R) (operator : Operator)
    (operands : List Value) : Predicate :=
  .atom ⟨columns.column field.name, operator, operands⟩

def selectAggregate (columns : ColumnMap) (aggregate : Aggregate R) : SelectedAggregate where
  expression :=
    functionName aggregate.function ++ "(" ++
      quoteIdentifier (columns.column aggregate.field.name) ++ ")"
  groupBy := aggregate.groupBy.map fun field => quoteIdentifier (columns.column field.name)
  order := aggregate.order

def orderKeys (columns : ColumnMap) (sort : SortOrder R) : OrderKeys :=
  sort.map fun key => orderKey (quoteIdentifier (columns.column key.field.name)) key.direction

@[reducible]
def backend (R : Type) (columns : ColumnMap) : Backend R where
  Scope := List String
  Predicate := Predicate
  CompiledAggregate := SelectedAggregate
  CompiledSort := OrderKeys
  CompiledQuery := Statement
  comparison := fun field operator operands => .ok (comparison columns field operator operands)
  combine := .group
  aggregate := fun aggregate => .ok (selectAggregate columns aggregate)
  sort := fun sort => .ok (orderKeys columns sort)
  compile := fun scope predicate aggregates page => .ok ⟨scope, predicate, aggregates, page⟩

namespace Statement

def whereCondition (statement : Statement) : Option String :=
  let conditions := (statement.scope.map fun condition => "(" ++ condition ++ ")") ++
    statement.predicate.toList.map Predicate.toText
  if conditions.isEmpty then none else some (" AND ".intercalate conditions)

def parameters (statement : Statement) : List Value :=
  statement.predicate.elim [] Predicate.parameters

def groupColumns (statement : Statement) : List String :=
  (statement.aggregates.flatMap SelectedAggregate.groupBy).foldl
    (fun columns column => if columns.contains column then columns else columns ++ [column]) []

def aggregateOrder (statement : Statement) : OrderKeys :=
  statement.aggregates.filterMap fun aggregate => aggregate.order.map (orderKey aggregate.expression)

def selected (statement : Statement) : String :=
  if statement.aggregates.isEmpty then "*"
  else
    ", ".intercalate
      (statement.groupColumns ++ statement.aggregates.map SelectedAggregate.expression)

def groupClause (statement : Statement) : String :=
  if statement.groupColumns.isEmpty then ""
  else " GROUP BY " ++ ", ".intercalate statement.groupColumns

def orderClause (statement : Statement) (sort : Option OrderKeys) : String :=
  let keys := if statement.aggregates.isEmpty then sort.getD [] else statement.aggregateOrder
  if keys.isEmpty then "" else " " ++ keys.clause

def pageClause (statement : Statement) : String :=
  match statement.page with
  | none => ""
  | some page =>
    (match page.limit with
      | none => ""
      | some limit => " LIMIT " ++ toString limit.toNat) ++
      if page.offset = 0 then "" else " OFFSET " ++ toString page.offset.toNat

def toSelect (statement : Statement) (table : String) (sort : Option OrderKeys) : String :=
  "SELECT " ++ statement.selected ++ " FROM " ++ quoteIdentifier table ++
    statement.whereCondition.elim "" (" WHERE " ++ ·) ++ statement.groupClause ++
    statement.orderClause sort ++ statement.pageClause

end Statement

end Criteria.Sql
