import Criteria.Value

/-!
This module contains the comparison operators: how many operands each takes, which fields it applies to,
and its names.
-/

namespace Criteria

inductive Arity where
  | nullary
  | unary
  | binary
  | variadic
  deriving DecidableEq

namespace Arity

def accepts : Arity → Nat → Bool
  | nullary, count => count = 0
  | unary, count => count = 1
  | binary, count => count = 2
  | variadic, count => 1 ≤ count

def toText : Arity → String
  | nullary => "no operands"
  | unary => "exactly one operand"
  | binary => "exactly two operands"
  | variadic => "at least one operand"

end Arity

inductive ValueClass where
  | any
  | orderable
  | text
  deriving DecidableEq

namespace ValueClass

def admits : ValueClass → ValueType → Bool
  | any, _ => true
  | orderable, type => type.isOrderable
  | text, type => type = .string

def toText : ValueClass → String
  | any => "any"
  | orderable => "orderable"
  | text => "string"

end ValueClass

inductive Operator where
  | equal
  | notEqual
  | greaterThan
  | greaterThanOrEqual
  | lessThan
  | lessThanOrEqual
  | isIn
  | notIn
  | like
  | notLike
  | isNull
  | notNull
  | between
  deriving DecidableEq

namespace Operator

def all : List Operator :=
  [equal, notEqual, greaterThan, greaterThanOrEqual, lessThan, lessThanOrEqual, isIn, notIn, like,
    notLike, isNull, notNull, between]

def arity : Operator → Arity
  | isNull | notNull => .nullary
  | between => .binary
  | isIn | notIn => .variadic
  | _ => .unary

def valueClass : Operator → ValueClass
  | greaterThan | greaterThanOrEqual | lessThan | lessThanOrEqual | between => .orderable
  | like | notLike => .text
  | _ => .any

def isNullCheck : Operator → Bool
  | isNull | notNull => true
  | _ => false

def toText : Operator → String
  | equal => "equal"
  | notEqual => "not_equal"
  | greaterThan => "greater_than"
  | greaterThanOrEqual => "greater_than_or_equal"
  | lessThan => "less_than"
  | lessThanOrEqual => "less_than_or_equal"
  | isIn => "in"
  | notIn => "not_in"
  | like => "like"
  | notLike => "not_like"
  | isNull => "is_null"
  | notNull => "not_null"
  | between => "between"

def ofText? (name : String) : Option Operator :=
  all.find? fun operator => operator.toText = name

def toTag (operator : Operator) : String :=
  operator.toText.map Char.toUpper

end Operator

end Criteria
