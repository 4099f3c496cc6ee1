import Criteria.Formula

/-!
This module contains the proof that compiling a formula means to prune it and to put what is left together
anew, and that the predicate so made is satisfied where the formula holds.
-/

namespace Criteria.Formula

variable {α β ε P : Type}

mutual

/--
What is left of a formula when it is compiled, with its atoms and groups as they were. That this is its simple form, which
does not depend on how formulas are compiled, is `pruned_eq_some_iff`.
-/
def pruned : Formula α → Option (Formula α)
  | atom a => some (.atom a)
  | group connective children => join .group connective (prunedOfAll children)

def prunedOfAll : List (Formula α) → List (Formula α)
  | [] => []
  | child :: children =>
    match child.pruned with
    | none => prunedOfAll children
    | some rest => rest :: prunedOfAll children

end

theorem prunedOfAll_eq (children : List (Formula α)) :
    prunedOfAll children = children.filterMap pruned := by
  induction children with
  | nil => rfl
  | cons child children ih =>
    rw [prunedOfAll, ih, List.filterMap_cons]
    cases child.pruned <;> rfl

@[simp]
theorem pruned_atom (a : α) : (atom a).pruned = some (atom a) := by rw [pruned]

@[simp]
theorem pruned_group (connective : Connective) (children : List (Formula α)) :
    (group connective children).pruned = join .group connective (children.filterMap pruned) := by
  rw [pruned, prunedOfAll_eq]

theorem join_map {combine : Connective → List P → P} (f : Formula α → P)
    (hf : ∀ connective children, f (.group connective children) = combine connective (children.map f))
    (connective : Connective) (children : List (Formula α)) :
    join combine connective (children.map f) = (join .group connective children).map f := by
  match children with
  | [] => rfl
  | [child] => rfl
  | first :: second :: children =>
    simp only [List.map_cons, join, Option.map_some, hf]

theorem join_eq_none_iff {combine : Connective → List P → P} {connective : Connective}
    {predicates : List P} : join combine connective predicates = none ↔ predicates = [] := by
  match predicates with
  | [] => simp [join]
  | [predicate] => simp [join]
  | first :: second :: predicates => simp [join]

theorem pruned_eq_none_iff {formula : Formula α} : formula.pruned = none ↔ formula.isEmpty := by
  induction formula with
  | atom a => simp
  | group connective children ih =>
    rw [pruned_group, join_eq_none_iff, isEmpty_group, List.all_eq_true, List.filterMap_eq_nil_iff]
    constructor
    · intro h child hchild
      exact (ih child hchild).1 (h child hchild)
    · intro h child hchild
      exact (ih child hchild).2 (h child hchild)

theorem compileAll_eq_ok {comparison : α → Except ε P} {combine : Connective → List P → P}
    {compiled : Formula α → Option P} {children : List (Formula α)}
    (h : ∀ child ∈ children, child.compile comparison combine = .ok (compiled child)) :
    compileAll comparison combine children = .ok (children.filterMap compiled) := by
  induction children with
  | nil => rfl
  | cons child children ih =>
    rw [List.forall_mem_cons] at h
    rw [compileAll, h.1, ih h.2, List.filterMap_cons]
    cases compiled child <;> rfl

theorem compile_eq_ok {comparison : α → Except ε P} {combine : Connective → List P → P}
    {ofAtom : α → P} {formula : Formula α}
    (h : ∀ a ∈ formula.atoms, comparison a = .ok (ofAtom a)) :
    formula.compile comparison combine = .ok (formula.pruned.map (fold ofAtom combine)) := by
  induction formula with
  | atom a =>
    rw [compile, h a (by simp)]
    simp only [pruned_atom, Option.map_some, fold_atom]
    rfl
  | group connective children ih =>
    have hchildren : ∀ child ∈ children,
        child.compile comparison combine = .ok (child.pruned.map (fold ofAtom combine)) := by
      intro child hchild
      exact ih child hchild (forall_mem_atoms_group_iff.mp h child hchild)
    rw [compile, compileAll_eq_ok hchildren, pruned_group]
    rw [← join_map _ (fold_group ofAtom combine), List.map_filterMap]
    rfl

theorem eq_of_join_eq_some {combine : Connective → List P → P} {connective : Connective}
    {predicates : List P} {predicate : P} (h : join combine connective predicates = some predicate) :
    predicate ∈ predicates ∨ 2 ≤ predicates.length ∧ predicate = combine connective predicates := by
  match predicates with
  | [] => cases h
  | [single] =>
    cases h
    left
    apply List.mem_singleton_self
  | first :: second :: others =>
    cases h
    right
    simp

theorem forall_mem_map_fold_pruned {motive : P → Prop} {ofAtom : α → P}
    {combine : Connective → List P → P} {formula : Formula α}
    (hatom : ∀ a ∈ formula.atoms, motive (ofAtom a))
    (hcombine : ∀ connective predicates, 2 ≤ predicates.length →
      (∀ predicate ∈ predicates, motive predicate) → motive (combine connective predicates)) :
    ∀ predicate ∈ formula.pruned.map (fold ofAtom combine), motive predicate := by
  induction formula with
  | atom a =>
    intro predicate h
    cases h
    apply hatom
    simp
  | group connective children ih =>
    rw [pruned_group, ← join_map _ (fold_group ofAtom combine), List.map_filterMap]
    have hchildren : ∀ predicate ∈
        children.filterMap (fun child => child.pruned.map (fold ofAtom combine)), motive predicate := by
      intro predicate hpredicate
      rcases List.mem_filterMap.1 hpredicate with ⟨child, hchild, heq⟩
      exact ih child hchild (forall_mem_atoms_group_iff.mp hatom child hchild) predicate heq
    intro predicate h
    cases eq_of_join_eq_some h with
    | inl hmem => exact hchildren predicate hmem
    | inr hcombined =>
      rw [hcombined.2]
      exact hcombine _ _ hcombined.1 hchildren

section Satisfaction

variable {combine : Connective → List P → P} {satisfied : P → Bool}

theorem all_join_and (hand : ∀ predicates, satisfied (combine .and predicates) = predicates.all satisfied)
    (predicates : List P) :
    (join combine .and predicates).all satisfied = predicates.all satisfied := by
  match predicates with
  | [] => rfl
  | [predicate] => simp [join]
  | first :: second :: predicates => rw [join, Option.all_some, hand]; all_goals simp

theorem all_join_or (hor : ∀ predicates, satisfied (combine .or predicates) = predicates.any satisfied)
    (predicates : List P) :
    (join combine .or predicates).all satisfied =
      (predicates.isEmpty || predicates.any satisfied) := by
  match predicates with
  | [] => rfl
  | [predicate] => simp [join]
  | first :: second :: predicates => rw [join, Option.all_some, hor]; all_goals simp

/-- Where conjunctions and disjunctions are combined as such, what is compiled is satisfied if the formula holds. -/
theorem all_map_fold_pruned
    (hand : ∀ predicates, satisfied (combine .and predicates) = predicates.all satisfied)
    (hor : ∀ predicates, satisfied (combine .or predicates) = predicates.any satisfied)
    (ofAtom : α → P) (formula : Formula α) :
    (formula.pruned.map (fold ofAtom combine)).all satisfied =
      formula.holds fun a => satisfied (ofAtom a) := by
  induction formula with
  | atom a => simp
  | group connective children ih =>
    rw [pruned_group, ← join_map _ (fold_group ofAtom combine), List.map_filterMap]
    cases connective with
    | and =>
      rw [all_join_and hand, holds_group_and, List.all_filterMap]
      rw [Bool.eq_iff_iff, List.all_eq_true, List.all_eq_true]
      refine forall₂_congr fun child hchild => ?_
      rw [← ih child hchild]
      cases child.pruned <;> rfl
    | or =>
      rw [all_join_or hor, holds_group_or, List.any_filterMap]
      rw [Bool.eq_iff_iff, Bool.or_eq_true, Bool.or_eq_true]
      apply or_congr
      · rw [List.isEmpty_iff, List.filterMap_eq_nil_iff, List.all_eq_true]
        refine forall₂_congr fun child _ => ?_
        rw [Option.map_eq_none_iff, pruned_eq_none_iff]
      · rw [List.any_eq_true, List.any_eq_true]
        refine exists_congr fun child => and_congr_right fun hchild => ?_
        rw [← ih child hchild]
        -- A child that is pruned away places no restriction, and it is passed over on both sides.
        cases hpruned : child.pruned with
        | none => simp [pruned_eq_none_iff.1 hpruned]
        | some rest =>
          have : child.isEmpty = false := by
            rw [← Bool.not_eq_true, ← pruned_eq_none_iff, hpruned]
            simp
          simp [this]

end Satisfaction

end Criteria.Formula
