import Criteria.Builder
import Criteria.Proofs.Filter.Completion
import Criteria.Proofs.Formula.Effect
import Criteria.Proofs.Formula.Traverse
import Criteria.Proofs.Memory.Predicate

/-!
This module contains the proof that all conditions consist of leaves whose parts fit together, no matter in
which of the ways there are they have been built. So backends are given nothing else, and the evaluation of a
leaf finds every operand that it looks for.
-/

namespace Criteria

variable {R : Type}

namespace BuilderStep

mutual

def appended : BuilderStep R → List (Condition R)
  | .loose _ _ _ => []
  | .typed _ _ _ _ => []
  | .condition built => [built]
  | .nested _ steps => appendedOfAll steps

def appendedOfAll : List (BuilderStep R) → List (Condition R)
  | [] => []
  | step :: steps => step.appended ++ appendedOfAll steps

end

end BuilderStep

/--
The conditions that can be built: as a single leaf, as a group, with a builder, to which conditions that have been
built before can be appended, and from a filter text.
-/
inductive Condition.IsBuilt : Condition R → Prop where
  | leaf {field : Field R} {operator : Operator} {operands : List Value} {condition : Condition R} :
      Condition.leaf field operator operands = .ok condition → IsBuilt condition
  | group {connective : Connective} {children : List (Condition R)} :
      (∀ child ∈ children, IsBuilt child) → IsBuilt (.group connective children)
  | builder {registry : Registry R} {connective : Connective} {steps : List (BuilderStep R)}
      {condition : Condition R} :
      (∀ appended ∈ BuilderStep.appendedOfAll steps, IsBuilt appended) →
        ((Builder.start registry connective).run steps).build = .ok condition → IsBuilt condition
  | filter {settings : Settings} {registry : Registry R} {text : String} {condition : Condition R} :
      Condition.ofFilter settings registry text = .ok condition → IsBuilt condition

namespace Condition

theorem isValid_unrestricted : (unrestricted : Condition R).IsValid := by
  apply isValid_group_iff.mpr
  simp

theorem isValid_of_leaf_eq_ok {field : Field R} {operator : Operator} {operands : List Value}
    {condition : Condition R} (h : leaf field operator operands = .ok condition) :
    condition.IsValid := by
  rcases leaf_eq_ok_iff.mp h with ⟨made, hmake, rfl⟩
  rw [Leaf.make_eq_ok_iff] at hmake
  rcases hmake with ⟨rfl, hvalid⟩
  rwa [isValid_atom_iff]

end Condition

namespace Builder

def IsValid (builder : Builder R) : Prop :=
  ∀ children, builder.children = .ok children → ∀ child ∈ children, child.IsValid

theorem isValid_start (registry : Registry R) (connective : Connective) :
    (start registry connective).IsValid := by
  intro children h
  cases h
  simp

theorem isValid_push {builder : Builder R} {child : Except Error (Condition R)}
    (hbuilder : builder.IsValid) (hchild : ∀ condition, child = .ok condition → condition.IsValid) :
    (builder.push child).IsValid := by
  intro children h
  unfold push at h
  simp only [Except.bind_eq_ok_iff, Except.pure_eq_ok_iff] at h
  rcases h with ⟨before, hbefore, condition, hcondition, rfl⟩
  intro other hother
  rw [List.mem_append, List.mem_singleton] at hother
  cases hother with
  | inl hmem => exact hbuilder before hbefore other hmem
  | inr heq =>
    rw [heq]
    exact hchild condition hcondition

theorem isValid_of_build_eq_ok {builder : Builder R} (hbuilder : builder.IsValid)
    {condition : Condition R} (h : builder.build = .ok condition) : condition.IsValid := by
  unfold build at h
  simp only [Except.bind_eq_ok_iff, Except.pure_eq_ok_iff] at h
  rcases h with ⟨children, hchildren, rfl⟩
  rw [Condition.isValid_group_iff]
  exact hbuilder children hchildren

mutual

theorem isValid_step {builder : Builder R} (hbuilder : builder.IsValid) (step : BuilderStep R)
    (happended : ∀ condition ∈ step.appended, condition.IsValid) : (builder.step step).IsValid := by
  match step with
  | .loose name operator operands =>
    rw [Builder.step]
    apply isValid_push hbuilder
    intro condition h
    rw [Except.bind_eq_ok_iff] at h
    rcases h with ⟨field, _, hleaf⟩
    exact Condition.isValid_of_leaf_eq_ok hleaf
  | .typed type handle operator operands =>
    rw [Builder.step]
    apply isValid_push hbuilder
    intro condition h
    exact Condition.isValid_of_leaf_eq_ok h
  | .condition appended =>
    rw [Builder.step]
    apply isValid_push hbuilder
    intro condition h
    cases h
    apply happended
    rw [BuilderStep.appended]
    apply List.mem_singleton_self
  | .nested connective steps =>
    rw [BuilderStep.appended] at happended
    rw [Builder.step]
    apply isValid_push hbuilder
    intro condition h
    have hscope := isValid_run (isValid_start builder.registry connective) steps happended
    exact isValid_of_build_eq_ok hscope h

theorem isValid_run {builder : Builder R} (hbuilder : builder.IsValid) (steps : List (BuilderStep R))
    (happended : ∀ condition ∈ BuilderStep.appendedOfAll steps, condition.IsValid) :
    (builder.run steps).IsValid := by
  match steps with
  | [] =>
    rw [run]
    exact hbuilder
  | step :: steps =>
    rw [BuilderStep.appendedOfAll, List.forall_mem_append] at happended
    rw [run]
    apply isValid_run
    · exact isValid_step hbuilder step happended.1
    · exact happended.2

end

end Builder

namespace Condition

open Criteria.Filter

theorem isValid_of_toLeaf_eq_ok {settings : Settings} {registry : Registry R}
    {comparison : Filter.Comparison} {leaf : Leaf R}
    (h : comparison.toLeaf settings registry = .ok leaf) :
    Leaf.IsValid leaf.field leaf.operator leaf.operands := by
  unfold Filter.Comparison.toLeaf at h
  simp only [Except.bind_eq_ok_iff] at h
  rcases h with ⟨_, _, _, _, _, _, hmake⟩
  rw [Leaf.make_eq_ok_iff] at hmake
  rcases hmake with ⟨rfl, hvalid⟩
  exact hvalid

theorem isValid_of_ofExpression_eq_ok {settings : Settings} {registry : Registry R}
    {expression : Filter.Expression} {condition : Condition R}
    (h : ofExpression settings registry expression = .ok condition) : condition.IsValid := by
  intro leaf hleaf
  rcases Formula.exists_of_mem_atoms_of_traverse h hleaf with ⟨_, _, htoLeaf⟩
  exact isValid_of_toLeaf_eq_ok htoLeaf

theorem unrestricted_or_ofExpression_of_ofFilter_eq_ok {settings : Settings} {registry : Registry R}
    {text : String} {condition : Condition R} (h : ofFilter settings registry text = .ok condition) :
    (prepare text).toList.all Text.isBlank ∧ condition = unrestricted ∨
      ∃ expression, parse (prepare text) = .ok expression ∧
        ofExpression settings registry expression = .ok condition := by
  unfold ofFilter at h
  dsimp only at h
  split at h
  next hblank =>
    cases h
    exact .inl ⟨hblank, rfl⟩
  next =>
    rw [Except.bind_eq_ok_iff] at h
    rcases h with ⟨expression, hparse, hexpression⟩
    rw [Except.mapError_eq_ok_iff] at hparse
    exact .inr ⟨expression, hparse, hexpression⟩

theorem isValid_of_ofFilter_eq_ok {settings : Settings} {registry : Registry R} {text : String}
    {condition : Condition R} (h : ofFilter settings registry text = .ok condition) :
    condition.IsValid := by
  rcases unrestricted_or_ofExpression_of_ofFilter_eq_ok h with ⟨_, rfl⟩ | ⟨_, _, hexpression⟩
  · exact isValid_unrestricted
  · exact isValid_of_ofExpression_eq_ok hexpression

theorem isValid_of_isBuilt {condition : Condition R} (h : condition.IsBuilt) : condition.IsValid := by
  induction h with
  | leaf h => exact isValid_of_leaf_eq_ok h
  | group _ ih => exact isValid_group_iff.mpr ih
  | @builder registry connective steps condition _ h ih =>
    have hrun := Builder.isValid_run (Builder.isValid_start registry connective) steps ih
    exact Builder.isValid_of_build_eq_ok hrun h
  | filter h => exact isValid_of_ofFilter_eq_ok h

/--
In every leaf of a condition that has been built, the operator takes the number of operands, it applies to the
type of the field, and the operands are of this type. Whatever backend the condition is compiled for, the calls for
its leaves are for leaves of this kind. For lists of records it can be compiled, and no leaf
lacks an operand where it is evaluated.
-/
theorem isValid_and_compiles_of_isBuilt {condition : Condition R} (h : condition.IsBuilt) :
    (∀ leaf ∈ condition.atoms,
      leaf.operator.arity.accepts leaf.operands.length ∧
      leaf.operator.valueClass.admits leaf.field.type ∧
      ∀ operand ∈ leaf.operands, operand.type = leaf.field.type) ∧
    (∀ backend : Backend R, ∃ calls,
      StateT.run (Formula.compile (Formula.recorded backend.ofLeaf) backend.combine condition).run [] =
        (condition.compile backend, calls) ∧
      ∀ leaf ∈ calls, Leaf.IsValid leaf.field leaf.operator leaf.operands) ∧
    (∃ test, condition.compile (Memory.backend R) = .ok test) ∧
    ∀ leaf ∈ condition.atoms, ∀ value,
      leaf.operator.evaluate? value leaf.operands =
        some (leaf.operator.evaluate value leaf.operands) := by
  have hvalid := isValid_of_isBuilt h
  refine ⟨?_, ?_, ⟨_, Memory.compile_eq_ok hvalid⟩, ?_⟩
  · intro leaf hleaf
    rcases hvalid leaf hleaf with ⟨harity, hclass, htypes⟩
    exact ⟨harity, hclass, htypes⟩
  · intro backend
    rcases Formula.run_compile_recorded condition [] with ⟨calls, hcalls, hrun⟩
    exact ⟨calls, hrun, fun leaf hleaf => hvalid leaf (hcalls hleaf)⟩
  · intro leaf hleaf value
    apply Operator.evaluate?_eq_some
    exact (hvalid leaf hleaf).arity

theorem ofFilter_cell_eq_ok :
    ofFilter {} ⟨[.cell], by simp⟩ "cell==D*" = .ok (.atom ⟨.cell, .like, [.string "D%"]⟩) := by
  have hwritable : Comparison.IsWritable ⟨"cell", "==", ["D*"]⟩ :=
    ⟨by decide, isReserved_eq_false_of_any (by decide), .equal, by decide⟩
  have htext : "cell==D*" = Expression.toText (.atom ⟨"cell", "==", ["D*"]⟩) := by
    decide
  rw [htext, ofFilter_toText]
  · rfl
  · simpa using hwritable
  · exact .atom

theorem isValid_and_compiles_of_isBuilt_cell :
    let starting : Condition (Option Value) := .atom ⟨.cell, .like, [.string "D%"]⟩
    let condition : Condition (Option Value) :=
      .group .and [starting, .group .or [.atom ⟨.cell, .isNull, []⟩,
        .atom ⟨.cell, .between, [.string "a", .string "b"]⟩]]
    condition.IsBuilt ∧
      (∀ leaf ∈ condition.atoms,
        leaf.operator.arity.accepts leaf.operands.length ∧
        leaf.operator.valueClass.admits leaf.field.type ∧
        ∀ operand ∈ leaf.operands, operand.type = leaf.field.type) ∧
      (∀ backend : Backend (Option Value), ∃ calls,
        StateT.run (Formula.compile (Formula.recorded backend.ofLeaf) backend.combine condition).run [] =
          (condition.compile backend, calls) ∧
        ∀ leaf ∈ calls, Leaf.IsValid leaf.field leaf.operator leaf.operands) ∧
      (∃ test, condition.compile (Memory.backend (Option Value)) = .ok test) ∧
      ∀ leaf ∈ condition.atoms, ∀ value,
        leaf.operator.evaluate? value leaf.operands =
          some (leaf.operator.evaluate value leaf.operands) := by
  intro starting condition
  have hstarting : starting.IsBuilt := .filter ofFilter_cell_eq_ok
  let registry : Registry (Option Value) := ⟨[.cell], by simp⟩
  let steps : List (BuilderStep (Option Value)) :=
    [.condition starting, .nested .or [.loose "cell" .isNull [],
      .typed .string ⟨.cell, rfl⟩ .between [.string "a", .string "b"]]]
  have happended : ∀ appended ∈ BuilderStep.appendedOfAll steps, appended.IsBuilt := by
    simp [steps, BuilderStep.appendedOfAll, BuilderStep.appended, hstarting]
  have hbuilt : condition.IsBuilt := @IsBuilt.builder _ registry .and steps condition happended rfl
  exact ⟨hbuilt, isValid_and_compiles_of_isBuilt hbuilt⟩

end Condition

end Criteria
