import Criteria.Memory.Backend
import Criteria.Proofs.Formula.Compile
import Criteria.Proofs.Leaf
import Criteria.Proofs.Pattern.Regex

/-!
This module contains the proof that the tests of records into which conditions are compiled agree with the
direct evaluation of the conditions.
-/

namespace Criteria.Memory

variable {R : Type}

theorem exists_string_of_isValid {field : Field R} {operator : Operator} {operands : List Value}
    (hclass : operator.valueClass = .text) (harity : operator.arity = .unary)
    (h : Leaf.IsValid field operator operands) : ∃ pattern, operands = [.string pattern] := by
  rcases h with ⟨hcount, hadmits, htypes⟩
  simp only [harity, Arity.accepts, decide_eq_true_eq] at hcount
  simp only [hclass, ValueClass.admits, decide_eq_true_eq] at hadmits
  rcases List.length_eq_one_iff.1 hcount with ⟨operand, rfl⟩
  have htype := htypes operand (List.mem_singleton_self _)
  rw [hadmits] at htype
  cases operand with
  | string pattern => exact ⟨pattern, rfl⟩
  | _ => cases htype

theorem patternTest_ofPattern (field : Field R) (pattern : String) (expected : Bool) (record : R) :
    patternTest field (Regex.ofPattern (Pattern.ofText pattern)) expected record =
      (if expected then Operator.like else Operator.notLike).evaluate (field.read record)
        [.string pattern] := by
  unfold patternTest
  cases field.read record with
  | none => cases expected <;> rfl
  | some value =>
    cases value with
    | string text =>
      simp only [Option.bind_some, Value.text?, Regex.isMatch_ofPattern]
      cases expected <;> simp [Operator.evaluate, Operator.relates, Value.text?, isLike]
    | _ => cases expected <;> rfl

theorem comparison_eq_ok {field : Field R} {operator : Operator} {operands : List Value}
    (h : Leaf.IsValid field operator operands) :
    comparison field operator operands = .ok (Leaf.isMatch ⟨field, operator, operands⟩) := by
  cases operator with
  | like =>
    rcases exists_string_of_isValid rfl rfl h with ⟨pattern, rfl⟩
    apply congrArg Except.ok
    funext record
    apply patternTest_ofPattern
  | notLike =>
    rcases exists_string_of_isValid rfl rfl h with ⟨pattern, rfl⟩
    apply congrArg Except.ok
    funext record
    apply patternTest_ofPattern
  | _ => rfl

theorem compile_eq_ok {condition : Condition R} (h : condition.IsValid) :
    condition.compile (backend R) =
      .ok (condition.pruned.map (Formula.fold Leaf.isMatch combine)) := by
  apply Formula.compile_eq_ok
  intro leaf hleaf
  exact comparison_eq_ok (h leaf hleaf)

theorem all_map_fold_pruned (condition : Condition R) (record : R) :
    ((condition.pruned.map (Formula.fold Leaf.isMatch combine)).all fun test => test record) =
      condition.isMatch record := by
  apply Formula.all_map_fold_pruned
  · intro tests
    rfl
  · intro tests
    rfl

/-- A condition compiles to a test that each record passes if it satisfies the condition. -/
theorem exists_compile_eq_ok_and_isMatch_eq (condition : Condition R)
    (h : ∀ leaf ∈ condition.atoms, Leaf.make leaf.field leaf.operator leaf.operands = .ok leaf) :
    ∃ test, condition.compile (backend R) = .ok test ∧
      ∀ record, condition.isMatch record = test.all fun test => test record := by
  refine ⟨_, compile_eq_ok (Condition.isValid_iff_make.2 h), ?_⟩
  intro record
  rw [all_map_fold_pruned]

theorem exists_compile_eq_ok_and_isMatch_eq_cell :
    let condition : Condition (Option Value) :=
      .group .or [.group .and [], .group .and [.atom ⟨.cell, .like, [.string "D%_e"]⟩],
        .atom ⟨.cell, .isNull, []⟩]
    (∀ leaf ∈ condition.atoms, Leaf.make leaf.field leaf.operator leaf.operands = .ok leaf) ∧
      ∃ test, condition.compile (backend (Option Value)) = .ok test ∧
        ∀ record, condition.isMatch record = test.all fun test => test record := by
  intro condition
  have h : ∀ leaf ∈ condition.atoms,
      Leaf.make leaf.field leaf.operator leaf.operands = .ok leaf := by
    simp only [condition, Formula.atoms_group, Formula.atoms_atom, List.flatMap_cons,
      List.flatMap_nil, List.cons_append, List.nil_append, List.forall_mem_cons]
    exact ⟨rfl, rfl, by simp⟩
  exact ⟨h, exists_compile_eq_ok_and_isMatch_eq condition h⟩

end Criteria.Memory
