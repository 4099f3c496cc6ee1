import Criteria.Proofs.Formula.Holds
import Criteria.Proofs.Formula.Simplification
import Criteria.Proofs.Leaf

/-!
This module contains the proof that it does not matter how the parts of a formula are grouped. A part without atoms
places no restriction, in a disjunction as well, so what a formula means cannot be told without telling whether it has
atoms: a step anywhere in a formula keeps both.
-/

namespace Criteria

namespace Formula

variable {α : Type}

inductive Regroups : Formula α → Formula α → Prop where
  | permute {connective : Connective} {children children' : List (Formula α)} :
      children.Perm children' → Regroups (.group connective children) (.group connective children')
  | simplify {formula formula' : Formula α} : Simplifies formula formula' → Regroups formula formula'
  | splice {connective : Connective} {before parts after : List (Formula α)} :
      Regroups (.group connective (before ++ .group connective parts :: after))
        (.group connective (before ++ parts ++ after))

abbrev RegroupsTo : Formula α → Formula α → Prop :=
  Relation.EqvGen (Within Regroups)

section Steps

variable {test : α → Bool} {connective : Connective} {children children' before parts after : List (Formula α)}
  {formula formula' child child' : Formula α}

theorem holds_group_of_perm (h : children.Perm children') :
    (group connective children).holds test = (group connective children').holds test := by
  cases connective with
  | and => rw [holds_group_and, holds_group_and, h.all_eq]
  | or => rw [holds_group_or, holds_group_or, h.all_eq, h.any_eq]

theorem holds_group_drop (h : child.isEmpty) :
    (group connective (before ++ child :: after)).holds test =
      (group connective (before ++ after)).holds test := by
  cases connective with
  | and => simp [holds_of_isEmpty test h]
  | or => simp [h]

theorem holds_group_splice :
    (group connective (before ++ group connective parts :: after)).holds test =
      (group connective (before ++ parts ++ after)).holds test := by
  cases connective with
  | and => simp
  | or =>
    rw [holds_group_or, holds_group_or]
    simp only [List.any_append, List.any_cons, any_restricted_eq parts]
    simp [Bool.or_assoc]

theorem isEmpty_eq_of_regroups (h : Regroups formula formula') : formula.isEmpty = formula'.isEmpty := by
  cases h with
  | permute hperm => rw [isEmpty_group, isEmpty_group, hperm.all_eq]
  | simplify hsimplifies =>
    rw [Bool.eq_iff_iff, ← pruned_eq_none_iff, ← pruned_eq_none_iff, pruned_eq_of_simplifies hsimplifies]
  | splice => simp

theorem holds_eq_of_regroups (h : Regroups formula formula') : formula.holds test = formula'.holds test := by
  cases h with
  | permute hperm => exact holds_group_of_perm hperm
  | simplify hsimplifies =>
    cases hsimplifies with
    | drop hempty => exact holds_group_drop hempty
    | unwrap => exact holds_group_singleton _ _
  | splice => exact holds_group_splice

theorem holds_group_congr (hempty : child.isEmpty = child'.isEmpty)
    (hholds : child.holds test = child'.holds test) :
    (group connective (before ++ child :: after)).holds test =
      (group connective (before ++ child' :: after)).holds test := by
  cases connective with
  | and => simp [hholds]
  | or => simp [hempty, hholds]

theorem isEmpty_eq_and_holds_eq_of_within (h : Within Regroups formula formula') :
    formula.isEmpty = formula'.isEmpty ∧ formula.holds test = formula'.holds test := by
  induction h with
  | here hstep => exact ⟨isEmpty_eq_of_regroups hstep, holds_eq_of_regroups hstep⟩
  | child _ ih => exact ⟨by simp [ih.1], holds_group_congr ih.1 ih.2⟩

theorem isEmpty_eq_and_holds_eq_of_regroupsTo (h : RegroupsTo formula formula') :
    formula.isEmpty = formula'.isEmpty ∧ formula.holds test = formula'.holds test := by
  induction h with
  | rel _ _ hstep => exact isEmpty_eq_and_holds_eq_of_within hstep
  | refl => exact ⟨rfl, rfl⟩
  | symm _ _ _ ih => exact ⟨ih.1.symm, ih.2.symm⟩
  | trans _ _ _ _ _ ih ih' => exact ⟨ih.1.trans ih'.1, ih.2.trans ih'.2⟩

end Steps

end Formula

namespace Condition

variable {R : Type}

/--
A condition is satisfied by the same records and places a restriction or none as before, however its parts are grouped
anew: at any depth the children of a group may change places, parts without leaves may be added or left out, a part may
be wrapped in a group of its own or unwrapped, and the children of a conjunction within a conjunction, or of a disjunction
within a disjunction, may be spliced into the outer one or gathered from it.
-/
theorem isMatch_eq_of_regroupsTo {condition condition' : Condition R} (h : condition.RegroupsTo condition') :
    (∀ record, condition.isMatch record = condition'.isMatch record) ∧
      condition.isEmpty = condition'.isEmpty := by
  constructor
  · intro record
    exact (Formula.isEmpty_eq_and_holds_eq_of_regroupsTo h).2
  · rcases @Formula.isEmpty_eq_and_holds_eq_of_regroupsTo _ (fun _ => true) _ _ h with ⟨hempty, _⟩
    exact hempty

theorem isMatch_eq_of_regroupsTo_cell :
    let dune : Condition (Option Value) := .atom ⟨.cell, .equal, [.string "Dune"]⟩
    let missing : Condition (Option Value) := .atom ⟨.cell, .isNull, []⟩
    let condition : Condition (Option Value) := .group .or [.group .or [unrestricted, dune], missing]
    let condition' : Condition (Option Value) := .group .or [.group .and [missing], dune]
    condition.RegroupsTo condition' ∧ (∀ record, condition.isMatch record = condition'.isMatch record) ∧
      condition.isEmpty = condition'.isEmpty := by
  intro dune missing condition condition'
  have hsplice : condition.RegroupsTo (.group .or [unrestricted, dune, missing]) :=
    .rel _ _ (.here (@Formula.Regroups.splice _ .or [] [unrestricted, dune] [missing]))
  have hdrop : Formula.RegroupsTo (.group .or [unrestricted, dune, missing]) (.group .or [dune, missing]) :=
    .rel _ _ (.here (.simplify (@Formula.Simplifies.drop _ .or [] _ _ rfl)))
  have hpermute : Formula.RegroupsTo (.group .or [dune, missing]) (.group .or [missing, dune]) :=
    .rel _ _ (.here (.permute (.swap missing dune [])))
  have hwrap : Formula.RegroupsTo (.group .or [missing, dune]) condition' :=
    .symm _ _ (.rel _ _ (@Formula.Within.child _ _ .or [] [dune] _ _ (.here (.simplify .unwrap))))
  have h : condition.RegroupsTo condition' :=
    .trans _ _ _ hsplice (.trans _ _ _ hdrop (.trans _ _ _ hpermute hwrap))
  exact ⟨h, isMatch_eq_of_regroupsTo h⟩

end Condition

end Criteria
