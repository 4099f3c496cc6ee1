import Criteria.Condition
import Criteria.Proofs.Except

/-!
This module contains the proof that leaves are made exactly of the parts that fit together, and that no operand
is missing when such a leaf is evaluated.
-/

namespace Criteria.Leaf

variable {R : Type} {field : Field R} {operator : Operator} {operands : List Value}

theorem checkOperator_eq_ok_iff {count : Nat} :
    checkOperator field operator count = .ok () ↔
      operator.arity.accepts count ∧ operator.valueClass.admits field.type := by
  unfold checkOperator
  split
  · simp_all
  · split <;> simp_all

theorem checkOperator_eq_error_iff {count : Nat} {e : Error} :
    checkOperator field operator count = .error e ↔
      operator.arity.accepts count = false ∧ e = .wrongArity field.name operator count ∨
        operator.arity.accepts count ∧ operator.valueClass.admits field.type = false ∧
          e = .inapplicableOperator field.name operator field.type := by
  unfold checkOperator
  cases harity : operator.arity.accepts count with
  | false => simpa using eq_comm
  | true =>
    cases hclass : operator.valueClass.admits field.type with
    | false => simpa using eq_comm
    | true => simp

theorem checkOperand_eq_ok_iff {operand : Value} :
    field.checkOperand operand = .ok () ↔ operand.type = field.type := by
  unfold Field.checkOperand
  split <;> simp_all

theorem isValid_iff :
    IsValid field operator operands ↔
      checkOperator field operator operands.length = .ok () ∧
        operands.forM field.checkOperand = .ok () := by
  rw [checkOperator_eq_ok_iff, Except.forM_eq_ok_iff]
  simp only [checkOperand_eq_ok_iff]
  constructor
  · intro h
    rcases h with ⟨harity, hclass, htypes⟩
    exact ⟨⟨harity, hclass⟩, htypes⟩
  · intro h
    rcases h with ⟨⟨harity, hclass⟩, htypes⟩
    exact ⟨harity, hclass, htypes⟩

theorem make_eq_ok_iff {leaf : Leaf R} :
    make field operator operands = .ok leaf ↔
      leaf = ⟨field, operator, operands⟩ ∧ IsValid field operator operands := by
  rw [isValid_iff]
  unfold make
  simp only [Except.bind_eq_ok_iff, Except.pure_eq_ok_iff]
  constructor
  · intro h
    rcases h with ⟨_, hoperator, _, hoperands, rfl⟩
    exact ⟨rfl, hoperator, hoperands⟩
  · intro h
    rcases h with ⟨rfl, hoperator, hoperands⟩
    exact ⟨(), hoperator, (), hoperands, rfl⟩

theorem make_of_checkOperator_eq_error {e : Error}
    (h : checkOperator field operator operands.length = .error e) :
    make field operator operands = .error e := by
  unfold make
  rw [h]
  rfl

end Criteria.Leaf

namespace Criteria.Operator

/--
Whether what a field holds stands in the relation of an operator to its operands. There is no answer for a
value if an operand that the operator needs is missing.
-/
def evaluate? (operator : Operator) (value : Option Value) (operands : List Value) : Option Bool :=
  match operator, value, operands with
  | isNull, value, _ => some value.isNone
  | notNull, value, _ => some value.isSome
  | _, none, _ => some false
  | between, some value, lower :: upper :: others => some (relates between value (lower :: upper :: others))
  | between, some _, _ => none
  | operator, some value, first :: others => some (operator.relates value (first :: others))
  | _, some _, [] => none

theorem evaluate_eq_getD_evaluate? (operator : Operator) (value : Option Value)
    (operands : List Value) :
    operator.evaluate value operands = (operator.evaluate? value operands).getD false := by
  cases operator with
  | isNull => rfl
  | notNull => rfl
  | between =>
    match value, operands with
    | none, _ => rfl
    | some _, [] => rfl
    | some _, [_] => rfl
    | some _, _ :: _ :: _ => rfl
  | _ =>
    match value, operands with
    | none, _ => rfl
    | some _, [] => rfl
    | some _, _ :: _ => rfl

theorem isSome_evaluate? {operator : Operator} {operands : List Value}
    (h : operator.arity.accepts operands.length) (value : Option Value) :
    (operator.evaluate? value operands).isSome := by
  cases operator with
  | isNull => rfl
  | notNull => rfl
  | between =>
    match value, operands with
    | none, _ => rfl
    | some _, [] => cases h
    | some _, [_] => cases h
    | some _, _ :: _ :: _ => rfl
  | _ =>
    match value, operands with
    | none, _ => rfl
    | some _, [] => cases h
    | some _, _ :: _ => rfl

theorem evaluate?_eq_some {operator : Operator} {operands : List Value}
    (h : operator.arity.accepts operands.length) (value : Option Value) :
    operator.evaluate? value operands = some (operator.evaluate value operands) := by
  rcases Option.isSome_iff_exists.mp (isSome_evaluate? h value) with ⟨result, hresult⟩
  rw [evaluate_eq_getD_evaluate?, hresult]
  rfl

end Criteria.Operator

def Criteria.Field.cell : Criteria.Field (Option Criteria.Value) where
  name := "cell"
  type := .string
  read := id

namespace Criteria.Condition

variable {R : Type} {condition : Condition R}

theorem leaf_eq_ok_iff {field : Field R} {operator : Operator} {operands : List Value} :
    leaf field operator operands = .ok condition ↔
      ∃ made, Leaf.make field operator operands = .ok made ∧ condition = .atom made := by
  unfold leaf
  cases Leaf.make field operator operands with
  | ok made => simpa [Except.map] using eq_comm
  | error e => simp [Except.map]

theorem leaf_eq_error_iff {field : Field R} {operator : Operator} {operands : List Value}
    {e : Error} :
    leaf field operator operands = .error e ↔ Leaf.make field operator operands = .error e := by
  unfold leaf
  cases Leaf.make field operator operands <;> simp [Except.map]

theorem isValid_iff_make :
    condition.IsValid ↔
      ∀ leaf ∈ condition.atoms, Leaf.make leaf.field leaf.operator leaf.operands = .ok leaf := by
  unfold IsValid
  simp only [Leaf.make_eq_ok_iff, true_and]

theorem isValid_atom_iff {leaf : Leaf R} :
    IsValid (.atom leaf) ↔ Leaf.IsValid leaf.field leaf.operator leaf.operands := by
  unfold IsValid
  rw [Formula.atoms_atom, List.forall_mem_singleton]

theorem isValid_group_iff {connective : Connective} {children : List (Condition R)} :
    IsValid (.group connective children) ↔ ∀ child ∈ children, child.IsValid := by
  unfold IsValid
  rw [Formula.forall_mem_atoms_group_iff]

end Criteria.Condition
