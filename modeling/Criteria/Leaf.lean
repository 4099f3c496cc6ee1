import Criteria.Field
import Criteria.Pattern.Scan

/-!
This module contains leaves, the single comparisons of which conditions consist, and the meaning of the
operators. A leaf is made by `Leaf.make`, which lets only those through that make sense.
-/

namespace Criteria

namespace Operator

def relates (operator : Operator) (value : Value) : List Value → Bool
  | [] => false
  | first :: others =>
    match operator with
    | equal => (value.compare first).any Ordering.isEq
    | notEqual => (value.compare first).any Ordering.isNe
    | greaterThan => (value.compare first).any Ordering.isGT
    | greaterThanOrEqual => (value.compare first).any Ordering.isGE
    | lessThan => (value.compare first).any Ordering.isLT
    | lessThanOrEqual => (value.compare first).any Ordering.isLE
    | between =>
      match others with
      | [] => false
      | upper :: _ =>
        (value.compare first).any Ordering.isGE && (value.compare upper).any Ordering.isLE
    | isIn => (first :: others).any fun operand => (value.compare operand).any Ordering.isEq
    | notIn => (first :: others).all fun operand => (value.compare operand).any Ordering.isNe
    | like =>
      match value.text?, first.text? with
      | some text, some pattern => isLike text pattern
      | _, _ => false
    | notLike =>
      match value.text?, first.text? with
      | some text, some pattern => !isLike text pattern
      | _, _ => false
    | isNull => false
    | notNull => true

/--
Whether what a field holds stands in the relation of an operator to its operands. A missing value
satisfies nothing but the test for its absence.
-/
def evaluate (operator : Operator) (value : Option Value) (operands : List Value) : Bool :=
  match operator with
  | isNull => value.isNone
  | notNull => value.isSome
  | operator =>
    match value with
    | none => false
    | some value => operator.relates value operands

end Operator

structure Leaf (R : Type) where
  field : Field R
  operator : Operator
  operands : List Value

namespace Leaf

variable {R : Type}

structure IsValid (field : Field R) (operator : Operator) (operands : List Value) : Prop where
  arity : operator.arity.accepts operands.length
  valueClass : operator.valueClass.admits field.type
  types : ∀ operand ∈ operands, operand.type = field.type

def checkOperator (field : Field R) (operator : Operator) (count : Nat) : Except Error Unit :=
  if !operator.arity.accepts count then
    .error (.wrongArity field.name operator count)
  else if !operator.valueClass.admits field.type then
    .error (.inapplicableOperator field.name operator field.type)
  else
    .ok ()

def make (field : Field R) (operator : Operator) (operands : List Value) :
    Except Error (Leaf R) := do
  checkOperator field operator operands.length
  operands.forM field.checkOperand
  return ⟨field, operator, operands⟩

def isMatch (leaf : Leaf R) (record : R) : Bool :=
  leaf.operator.evaluate (leaf.field.read record) leaf.operands

def same (a b : Leaf R) : Bool :=
  a.field.same b.field && a.operator = b.operator && a.operands.isEqv b.operands Value.same

end Leaf

end Criteria
