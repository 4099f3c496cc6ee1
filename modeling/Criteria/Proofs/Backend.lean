import Criteria.Proofs.Formula.Effect
import Criteria.Proofs.Leaf
import Criteria.Sql.Backend

/-!
This module contains what all backends have in common: how the predicate for a condition depends on the
predicates for its leaves.
-/

namespace Criteria.Condition

variable {R : Type}

theorem compile_eq_fold_of_not_isEmpty {backend : Backend R} {condition : Condition R}
    {ofLeaf : Leaf R → backend.Predicate}
    (hleaves : ∀ leaf ∈ condition.atoms, backend.ofLeaf leaf = .ok (ofLeaf leaf))
    (hempty : ¬condition.isEmpty) :
    ∃ simple, condition.SimplifiesTo simple ∧ simple.IsSimple ∧
      condition.compile backend = .ok (some (simple.fold ofLeaf backend.combine)) := by
  have hcompile : condition.compile backend =
      .ok (condition.pruned.map (Formula.fold ofLeaf backend.combine)) :=
    Formula.compile_eq_ok hleaves
  cases hpruned : condition.pruned with
  | none => exact absurd (Formula.pruned_eq_none_iff.mp hpruned) hempty
  | some simple =>
    rcases Formula.pruned_eq_some_iff.mp hpruned with ⟨hsimplifies, hsimple⟩
    rw [hpruned] at hcompile
    exact ⟨simple, hsimplifies, hsimple, hcompile⟩

/--
Compiling a condition is a fold that consults the backend for its leaves in turn. This does the same as compiling
the leaves from left to right, and the first leaf that fails decides the error. What the condition compiles to is
made of the predicates for its leaves as the simplified condition is made of leaves, and fewer than two
predicates are never combined. Simplifying a condition, in whole or in part, does not change what it compiles to.
-/
theorem compile_is_ordered_fold (backend : Backend R) (condition : Condition R) :
    (∀ {m : Type → Type} [Monad m] [LawfulMonad m] {P : Type} (comparison : Leaf R → m P)
        (combine : Connective → List P → P),
      Functor.discard (Formula.compile comparison combine condition) =
        forM condition.atoms fun leaf => Functor.discard (comparison leaf)) ∧
    (∀ error, condition.compile backend = .error error ↔
      ∃ before leaf after, condition.atoms = before ++ leaf :: after ∧
        (∀ earlier ∈ before, ∃ predicate, backend.ofLeaf earlier = .ok predicate) ∧
        backend.ofLeaf leaf = .error error) ∧
    (condition.compile backend = .ok none ↔ condition.isEmpty) ∧
    (∀ ofLeaf : Leaf R → backend.Predicate,
      (∀ leaf ∈ condition.atoms, backend.ofLeaf leaf = .ok (ofLeaf leaf)) → ¬condition.isEmpty →
        ∃ simple, condition.SimplifiesTo simple ∧ simple.IsSimple ∧
          condition.compile backend = .ok (some (simple.fold ofLeaf backend.combine))) ∧
    (∀ combine : Connective → List backend.Predicate → backend.Predicate,
      (∀ connective predicates, 2 ≤ predicates.length →
        combine connective predicates = backend.combine connective predicates) →
      Formula.compile backend.ofLeaf combine condition = condition.compile backend) ∧
    ∀ condition' : Condition R, condition.SimplifiesTo condition' →
      condition'.compile backend = condition.compile backend := by
  refine ⟨?_, ?_, ?_, ?_, ?_, ?_⟩
  · intro m _ _ P comparison combine
    apply Formula.discard_compile
  · intro error
    apply Formula.compile_eq_error_iff
  · apply Formula.compile_eq_ok_none_iff
  · intro ofLeaf hleaves hempty
    exact compile_eq_fold_of_not_isEmpty hleaves hempty
  · intro combine hcombine
    exact Formula.compile_congr hcombine condition
  · intro condition' h
    exact (Formula.compile_eq_of_simplifiesTo h).symm

theorem compile_is_ordered_fold_cell :
    let backend := Sql.backend (Option Value) []
    let ofLeaf (leaf : Leaf (Option Value)) : Sql.Predicate :=
      Sql.comparison [] leaf.field leaf.operator leaf.operands
    let inner : Condition (Option Value) := .group .and [.group .or [], .atom ⟨.cell, .isNull, []⟩]
    let condition : Condition (Option Value) :=
      .group .or [inner, .atom ⟨.cell, .equal, [.string "Dune"]⟩]
    let condition' : Condition (Option Value) :=
      .group .or [.atom ⟨.cell, .isNull, []⟩, .atom ⟨.cell, .equal, [.string "Dune"]⟩]
    ((∀ leaf ∈ condition.atoms, backend.ofLeaf leaf = .ok (ofLeaf leaf)) ∧ ¬condition.isEmpty ∧
      ∃ simple, condition.SimplifiesTo simple ∧ simple.IsSimple ∧
        condition.compile backend = .ok (some (simple.fold ofLeaf backend.combine))) ∧
    condition.SimplifiesTo condition' ∧
      condition'.compile backend = condition.compile backend := by
  intro backend ofLeaf inner condition condition'
  rcases compile_is_ordered_fold backend condition with ⟨_, _, _, hfold, _, hsimplified⟩
  have hleaves : ∀ leaf ∈ condition.atoms, backend.ofLeaf leaf = .ok (ofLeaf leaf) := by
    intro leaf _
    rfl
  have hempty : ¬condition.isEmpty := by simp [condition, inner]
  have hdrop : inner.SimplifiesTo (.group .and [.atom ⟨.cell, .isNull, []⟩]) :=
    .single (.here (@Formula.Simplifies.drop _ .and [] _ _ (by simp)))
  have hunwrap : inner.SimplifiesTo (.atom ⟨.cell, .isNull, []⟩) := hdrop.tail (.here .unwrap)
  have hcondition : condition.SimplifiesTo condition' :=
    Formula.simplifiesTo_child [] _ hunwrap
  exact ⟨⟨hleaves, hempty, hfold ofLeaf hleaves hempty⟩, hcondition, hsimplified _ hcondition⟩

end Criteria.Condition
