import Criteria.Operator

/-!
This module contains the errors of the library, each as its cause, and the words in which a cause is told.
-/

namespace Criteria

inductive Complaint where
  | emptyExpression
  | unexpectedCharacter (c : Char)
  | closingParenthesis
  | selector
  | operator
  | argument
  | emptyArgumentGroup
  | argumentSeparator
  | closingQuote
  deriving DecidableEq

def Complaint.toText : Complaint → String
  | emptyExpression => "empty expression"
  | unexpectedCharacter c => "unexpected character '" ++ c.toString ++ "'"
  | closingParenthesis => "expected ')'"
  | selector => "expected selector"
  | operator => "expected comparison operator (==, !=, =name=)"
  | argument => "expected argument"
  | emptyArgumentGroup => "empty argument group"
  | argumentSeparator => "expected ',' or ')' in argument group"
  | closingQuote => "unterminated quoted argument"

/--
A complaint about a filter text, with the number of bytes that precede its place in the text.
-/
structure SyntaxError where
  complaint : Complaint
  position : Nat
  deriving DecidableEq

def SyntaxError.message (e : SyntaxError) : String :=
  "parse error at position " ++ toString e.position ++ ": " ++ e.complaint.toText

inductive Expectation where
  | ofType (type : ValueType)
  | ofClass (valueClass : ValueClass)
  deriving DecidableEq

def Expectation.toText : Expectation → String
  | ofType type => type.toText
  | ofClass valueClass => valueClass.toText

inductive Slot where
  | aggregates
  | sort
  | page
  deriving DecidableEq

def Slot.toText : Slot → String
  | aggregates => "aggregates"
  | sort => "sort"
  | page => "page"

inductive Error where
  | unknownField (name : String)
  | duplicateField (name : String)
  | unsupportedOperator (symbol : String)
  | unconvertible (field : String) (raw : String) (type : ValueType)
  | inapplicableOperator (field : String) (operator : Operator) (type : ValueType)
  | typeMismatch (field : String) (type : ValueType) (expected : Expectation)
  | wrongArity (field : String) (operator : Operator) (count : Nat)
  | emptySortKey (input : String)
  | malformedFilter (cause : SyntaxError)
  | alreadySet (slot : Slot)
  | missingPattern (field : String) (operator : Operator)
  | unsupportedComparison (field : String) (operator : Operator)
  deriving DecidableEq

def Error.message : Error → String
  | unknownField name => s!"unknown field '{name}'"
  | duplicateField name => s!"field '{name}' is already registered"
  | unsupportedOperator symbol => s!"unsupported operator '{symbol}'"
  | unconvertible field raw type =>
    s!"cannot convert '{raw}' to {type.toText} for field '{field}'"
  | inapplicableOperator field operator type =>
    s!"operator '{operator.toText}' requires {operator.valueClass.toText} values, " ++
      s!"but field '{field}' is {type.toText}"
  | typeMismatch field type expected =>
    s!"field '{field}' is {type.toText}, expected {expected.toText}"
  | wrongArity field operator count =>
    s!"malformed filter: operator '{operator.toText}' on field '{field}' " ++
      s!"takes {operator.arity.toText}, got {count}"
  | emptySortKey input => s!"malformed filter: empty sort key in '{input}'"
  | malformedFilter cause =>
    s!"malformed filter at position {cause.position}: {cause.complaint.toText}"
  | alreadySet slot => s!"illegal state: {slot.toText} already set"
  | missingPattern field operator =>
    s!"backend error: '{operator.toText}' on '{field}' needs a string pattern"
  | unsupportedComparison field operator =>
    s!"backend error: '{operator.toText}' on '{field}' is not supported"

end Criteria
