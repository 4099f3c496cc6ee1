import Criteria.Leaf
import Criteria.Settings.Basic

/-!
This module contains the symbols of the operators and the conversion of the arguments of a comparison to
operands of the type of its field.
-/

namespace Criteria

def Operator.symbols : List (String × Operator) :=
  [("==", .equal), ("!=", .notEqual), ("=gt=", .greaterThan), ("=ge=", .greaterThanOrEqual),
    ("=lt=", .lessThan), ("=le=", .lessThanOrEqual), ("=in=", .isIn), ("=out=", .notIn),
    ("=like=", .like), ("=unlike=", .notLike), ("=notlike=", .notLike), ("=nonlike=", .notLike),
    ("=null=", .isNull), ("=isnull=", .isNull), ("=notnull=", .notNull), ("=nonnull=", .notNull)]

def Operator.ofSymbol (symbol : String) : Except Error Operator :=
  match symbols.find? fun entry => entry.1 = symbol with
  | some entry => .ok entry.2
  | none => .error (.unsupportedOperator symbol)

namespace Filter

structure Converted where
  operator : Operator
  operands : List Value

/--
What an equality is taken for, or an inequality if `negated`: a pattern match if the argument has a wildcard and
the field holds texts, else a null check if the argument is the word `null`.
-/
def rewriteEquality? {R : Type} (settings : Settings) (field : Field R) (negated : Bool)
    (argument : String) : Option Converted :=
  if settings.wildcardEquality && field.type = .string && argument.toList.contains '*' then
    let pattern := argument.toList.map fun c => if c = '*' then '%' else c
    some ⟨if negated then .notLike else .like, [.string (String.ofList pattern)]⟩
  else if settings.nullLiteral && argument = "null" then
    some ⟨if negated then .notNull else .isNull, []⟩
  else
    none

def rewrite? {R : Type} (settings : Settings) (field : Field R) (operator : Operator)
    (arguments : List String) : Option Converted :=
  match operator, arguments with
  | .equal, [argument] => rewriteEquality? settings field false argument
  | .notEqual, [argument] => rewriteEquality? settings field true argument
  | _, _ => none

def convertArgument {R : Type} (field : Field R) (argument : String) : Except Error Value :=
  match field.readText? argument with
  | some value => .ok value
  | none => .error (.unconvertible field.name argument field.type)

def convert {R : Type} (settings : Settings) (field : Field R) (operator : Operator)
    (arguments : List String) : Except Error Converted :=
  if operator.isNullCheck then
    return ⟨operator, []⟩
  else
    match rewrite? settings field operator arguments with
    | some converted => return converted
    | none => do
      Leaf.checkOperator field operator arguments.length
      return ⟨operator, ← arguments.mapM (convertArgument field)⟩

end Filter

end Criteria
