import Criteria.Proofs.Formula.Compile
import Criteria.Proofs.Formula.Shape
import Mathlib.Logic.Relation

/-!
This module contains the simplification of formulas, step by step: parts without atoms are left out, and groups of
one child are unwrapped. Pruning a formula is taking such steps for as long as there are any.
-/

namespace Criteria.Formula

variable {α : Type}

/--
Whether a step leads from one formula to another, be it a step of the whole formula or of one of its parts.
-/
inductive Within (step : Formula α → Formula α → Prop) : Formula α → Formula α → Prop where
  | here {formula formula' : Formula α} : step formula formula' → Within step formula formula'
  | child {connective : Connective} {before after : List (Formula α)} {child child' : Formula α} :
      Within step child child' →
        Within step (.group connective (before ++ child :: after))
          (.group connective (before ++ child' :: after))

inductive Simplifies : Formula α → Formula α → Prop where
  | drop {connective : Connective} {before after : List (Formula α)} {empty : Formula α} :
      empty.isEmpty →
        Simplifies (.group connective (before ++ empty :: after)) (.group connective (before ++ after))
  | unwrap {connective : Connective} {child : Formula α} :
      Simplifies (.group connective [child]) child

abbrev SimplifiesTo : Formula α → Formula α → Prop :=
  Relation.ReflTransGen (Within Simplifies)

section Steps

variable {connective : Connective} {formula formula' : Formula α}

theorem simplifiesTo_child (before after : List (Formula α)) (h : SimplifiesTo formula formula') :
    SimplifiesTo (.group connective (before ++ formula :: after))
      (.group connective (before ++ formula' :: after)) := by
  induction h with
  | refl => exact .refl
  | tail _ hstep ih => exact ih.tail (.child hstep)

theorem simplifiesTo_filterMap_pruned (before : List (Formula α)) {children : List (Formula α)}
    (h : ∀ child ∈ children, ∀ rest ∈ child.pruned, SimplifiesTo child rest) :
    SimplifiesTo (.group connective (before ++ children))
      (.group connective (before ++ children.filterMap pruned)) := by
  induction children generalizing before with
  | nil => exact .refl
  | cons child children ih =>
    rw [List.forall_mem_cons] at h
    cases hpruned : child.pruned with
    | none =>
      rw [List.filterMap_cons_none hpruned]
      have hdrop : Simplifies (.group connective (before ++ child :: children))
          (.group connective (before ++ children)) := .drop (pruned_eq_none_iff.mp hpruned)
      exact .head (.here hdrop) (ih before h.2)
    | some rest =>
      rw [List.filterMap_cons_some hpruned]
      have hchild : SimplifiesTo (.group connective (before ++ child :: children))
          (.group connective (before ++ rest :: children)) :=
        simplifiesTo_child before children (h.1 rest hpruned)
      have hchildren := ih (before ++ [rest]) h.2
      rw [List.append_assoc, List.append_assoc] at hchildren
      exact hchild.trans hchildren

theorem simplifiesTo_of_pruned_eq_some (h : formula.pruned = some formula') :
    SimplifiesTo formula formula' := by
  induction formula generalizing formula' with
  | atom a =>
    cases h
    exact .refl
  | group connective children ih =>
    rw [pruned_group] at h
    have hchildren : SimplifiesTo (.group connective children)
        (.group connective (children.filterMap pruned)) := by
      apply simplifiesTo_filterMap_pruned []
      intro child hchild rest hrest
      exact ih child hchild hrest
    cases hrest : children.filterMap pruned with
    | nil =>
      rw [hrest] at h
      cases h
    | cons first others =>
      rw [hrest] at h hchildren
      cases others with
      | nil =>
        cases h
        exact hchildren.tail (.here .unwrap)
      | cons second others =>
        cases h
        exact hchildren

theorem isSimple_of_pruned_eq_some (h : formula.pruned = some formula') : formula'.IsSimple := by
  induction formula generalizing formula' with
  | atom a =>
    cases h
    exact .atom
  | group connective children ih =>
    rw [pruned_group] at h
    have hchildren : ∀ rest ∈ children.filterMap pruned, rest.IsSimple := by
      intro rest hrest
      rw [List.mem_filterMap] at hrest
      rcases hrest with ⟨child, hchild, hpruned⟩
      exact ih child hchild hpruned
    cases eq_of_join_eq_some h with
    | inl hmem => exact hchildren _ hmem
    | inr hgroup =>
      rw [hgroup.2]
      exact .group hgroup.1 hchildren

theorem pruned_eq_of_simplifies (h : Simplifies formula formula') :
    formula.pruned = formula'.pruned := by
  cases h with
  | drop hempty =>
    rw [pruned_group, pruned_group, List.filterMap_append, List.filterMap_append]
    rw [List.filterMap_cons_none (pruned_eq_none_iff.mpr hempty)]
  | unwrap =>
    rw [pruned_group]
    cases hpruned : formula'.pruned with
    | none =>
      rw [List.filterMap_cons_none hpruned]
      rfl
    | some rest =>
      rw [List.filterMap_cons_some hpruned]
      rfl

theorem pruned_eq_of_within {step : Formula α → Formula α → Prop}
    (hstep : ∀ formula formula', step formula formula' → formula.pruned = formula'.pruned)
    (h : Within step formula formula') : formula.pruned = formula'.pruned := by
  induction h with
  | here h => exact hstep _ _ h
  | child _ ih =>
    rw [pruned_group, pruned_group, List.filterMap_append, List.filterMap_append]
    rw [List.filterMap_cons, List.filterMap_cons, ih]

theorem pruned_eq_of_simplifiesTo (h : SimplifiesTo formula formula') :
    formula.pruned = formula'.pruned := by
  induction h with
  | refl => rfl
  | tail _ hstep ih =>
    rw [ih]
    apply pruned_eq_of_within _ hstep
    intro formula formula' h
    exact pruned_eq_of_simplifies h

theorem filterMap_pruned_eq_self {children : List (Formula α)}
    (h : ∀ child ∈ children, child.pruned = some child) : children.filterMap pruned = children := by
  induction children with
  | nil => rfl
  | cons child children ih =>
    rw [List.forall_mem_cons] at h
    rw [List.filterMap_cons_some h.1, ih h.2]

theorem pruned_of_isSimple (h : formula.IsSimple) : formula.pruned = some formula := by
  induction formula with
  | atom a => rw [pruned_atom]
  | group connective children ih =>
    rcases everyGroup_group_iff.mp h with ⟨hlength, hchildren⟩
    have hpruned : children.filterMap pruned = children := by
      apply filterMap_pruned_eq_self
      intro child hchild
      exact ih child hchild (hchildren child hchild)
    rw [pruned_group, hpruned]
    match children with
    | [] => exact absurd hlength (Nat.not_succ_le_zero 1)
    | [child] => exact absurd hlength (Nat.not_succ_le_self 1)
    | first :: second :: others => rfl

/--
Every formula has at most one simple form. Whichever way one simplifies it, this is what pruning leaves.
-/
theorem pruned_eq_some_iff :
    formula.pruned = some formula' ↔ SimplifiesTo formula formula' ∧ formula'.IsSimple := by
  constructor
  · intro h
    exact ⟨simplifiesTo_of_pruned_eq_some h, isSimple_of_pruned_eq_some h⟩
  · intro h
    rw [pruned_eq_of_simplifiesTo h.1, pruned_of_isSimple h.2]

end Steps

end Criteria.Formula
