import Criteria.Proofs.Filter.Conversion

/-!
This module contains the proof that an expression becomes a condition of the same shape, which has the leaves of the
comparisons in their places, and that otherwise the first comparison in the order of the text without a leaf decides the
error.
-/

namespace Criteria

variable {R : Type}

instance : Nonempty (Leaf R) :=
  ⟨⟨{ name := "", type := .string, read := fun _ => none }, .isNull, []⟩⟩

namespace Condition

/--
An expression stands for the condition in which every comparison is replaced by its leaf, if each of them has one. Else
it fails as the first does that has none, with an error that is about the selector, the symbol, the arguments or the
leaf, in this order.
-/
theorem ofExpression_eq_ok_iff_and_eq_error_iff (settings : Settings) (registry : Registry R)
    (expression : Filter.Expression) :
    (∀ condition, ofExpression settings registry expression = .ok condition ↔
      ∃ leafOf : Filter.Comparison → Leaf R,
        (∀ comparison ∈ expression.atoms,
          comparison.toLeaf settings registry = .ok (leafOf comparison)) ∧
        condition = expression.map leafOf) ∧
    (∀ e, ofExpression settings registry expression = .error e ↔
      ∃ before comparison after, expression.atoms = before ++ comparison :: after ∧
        (∀ earlier ∈ before, ∃ leaf, earlier.toLeaf settings registry = .ok leaf) ∧
        comparison.Fails settings registry e) ∧
    ∀ (comparison : Filter.Comparison) (leaf : Leaf R),
      comparison.toLeaf settings registry = .ok leaf ↔
        ∃ field ∈ registry.fields, field.name = comparison.selector ∧
          ∃ operator, (comparison.symbol, operator) ∈ Operator.symbols ∧
            ∃ converted,
              Filter.convert settings field operator comparison.arguments = .ok converted ∧
              Leaf.make field converted.operator converted.operands = .ok leaf := by
  refine ⟨?_, ?_, ?_⟩
  · intro condition
    exact Formula.traverse_eq_ok_iff
  · intro e
    simp only [← Filter.Comparison.toLeaf_eq_error_iff]
    exact Formula.traverse_eq_error_iff
  · intro comparison leaf
    exact Filter.Comparison.toLeaf_eq_ok_iff

example :
    ofExpression {} ⟨[.cell], by simp⟩
        (.group .and [.atom ⟨"cell", "==", ["D*"]⟩,
          .group .or [.atom ⟨"cell", "=gt=", []⟩, .atom ⟨"pages", "==", ["1"]⟩]]) =
      .error (.wrongArity "cell" .greaterThan 0) :=
  rfl

end Condition

end Criteria
