import Criteria.Formula

/-!
This module contains what the truth of a formula depends on.
-/

namespace Criteria.Formula

variable {α : Type}

theorem holds_congr {test test' : α → Bool} {formula : Formula α}
    (h : ∀ a ∈ formula.atoms, test a = test' a) : formula.holds test = formula.holds test' := by
  induction formula with
  | atom a =>
    rw [holds_atom, holds_atom]
    apply h
    simp
  | group connective children ih =>
    have hchildren : ∀ child ∈ children, child.holds test = child.holds test' := by
      intro child hchild
      exact ih child hchild (forall_mem_atoms_group_iff.mp h child hchild)
    cases connective with
    | and =>
      rw [holds_group_and, holds_group_and, Bool.eq_iff_iff, List.all_eq_true, List.all_eq_true]
      refine forall₂_congr fun child hchild => ?_
      rw [hchildren child hchild]
    | or =>
      rw [holds_group_or, holds_group_or]
      congr 1
      rw [Bool.eq_iff_iff, List.any_eq_true, List.any_eq_true]
      refine exists_congr fun child => and_congr_right fun hchild => ?_
      rw [hchildren child hchild]

section Group

variable {test : α → Bool} {connective : Connective}

theorem holds_group_singleton (connective : Connective) (child : Formula α) :
    (group connective [child]).holds test = child.holds test := by
  cases connective with
  | and => simp
  | or =>
    cases hempty : child.isEmpty with
    | true => simp [hempty, holds_of_isEmpty test hempty]
    | false => simp [hempty]

theorem any_restricted_eq (children : List (Formula α)) :
    (children.any fun child => !child.isEmpty && child.holds test) =
      (!(group .or children).isEmpty && (group .or children).holds test) := by
  rw [isEmpty_group, holds_group_or]
  cases hempty : children.all isEmpty with
  | true =>
    rw [List.all_eq_true] at hempty
    rw [List.any_eq_false.mpr]
    · rfl
    · intro child hchild
      simp [hempty child hchild]
  | false => rfl

theorem holds_group_flatMap {children : List (Formula α)} {parts : Formula α → List (Formula α)}
    (hholds : ∀ child ∈ children, (group connective (parts child)).holds test = child.holds test)
    (hempty : ∀ child ∈ children, (group connective (parts child)).isEmpty = child.isEmpty) :
    (group connective (children.flatMap parts)).holds test =
      (group connective children).holds test := by
  cases connective with
  | and =>
    rw [holds_group_and, holds_group_and, List.all_flatMap, Bool.eq_iff_iff, List.all_eq_true,
      List.all_eq_true]
    refine forall₂_congr fun child hchild => ?_
    rw [← hholds child hchild, holds_group_and]
  | or =>
    rw [holds_group_or, holds_group_or, List.all_flatMap, List.any_flatMap]
    congr 1
    · rw [Bool.eq_iff_iff, List.all_eq_true, List.all_eq_true]
      refine forall₂_congr fun child hchild => ?_
      rw [← hempty child hchild, isEmpty_group]
    · rw [Bool.eq_iff_iff, List.any_eq_true, List.any_eq_true]
      refine exists_congr fun child => and_congr_right fun hchild => ?_
      rw [any_restricted_eq, hholds child hchild, hempty child hchild]

end Group

end Criteria.Formula
