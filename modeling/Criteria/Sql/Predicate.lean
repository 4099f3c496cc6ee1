import Criteria.Formula
import Criteria.Operator

/-!
This module contains SQL conditions. A condition is a formula over comparisons of columns and is written with
question marks in the place of its operands, which are handed over separately in the same order.
-/

namespace Criteria.Sql

def quoteIdentifier (name : String) : String :=
  String.ofList ('"' :: (name.toList.flatMap fun c => if c = '"' then ['"', '"'] else [c]) ++ ['"'])

structure Comparison where
  column : String
  operator : Operator
  operands : List Value
  deriving DecidableEq

def placeholders (count : Nat) : String :=
  ", ".intercalate (List.replicate count "?")

def writeRelation (operator : Operator) (count : Nat) : String :=
  match operator with
  | .equal => " = ?"
  | .notEqual => " <> ?"
  | .greaterThan => " > ?"
  | .greaterThanOrEqual => " >= ?"
  | .lessThan => " < ?"
  | .lessThanOrEqual => " <= ?"
  | .isIn => " IN (" ++ placeholders count ++ ")"
  | .notIn => " NOT IN (" ++ placeholders count ++ ")"
  | .like => " LIKE ?"
  | .notLike => " NOT LIKE ?"
  | .isNull => " IS NULL"
  | .notNull => " IS NOT NULL"
  | .between => " BETWEEN ? AND ?"

def Comparison.toText (comparison : Comparison) : String :=
  quoteIdentifier comparison.column ++
    writeRelation comparison.operator comparison.operands.length

abbrev Predicate := Formula Comparison

namespace Predicate

def separator : Connective → String
  | .and => " AND "
  | .or => " OR "

def toText (predicate : Predicate) : String :=
  predicate.fold Comparison.toText fun connective parts =>
    "(" ++ (separator connective).intercalate parts ++ ")"

def parameters (predicate : Predicate) : List Value :=
  predicate.atoms.flatMap Comparison.operands

end Predicate

end Criteria.Sql
