import Criteria.Formula

/-!
This module contains properties of the shape of formulas, which are about the groups and their children.
-/

namespace Criteria.Formula

variable {α β : Type}

inductive EveryGroup (p : Connective → List (Formula α) → Prop) : Formula α → Prop where
  | atom {a : α} : EveryGroup p (.atom a)
  | group {connective : Connective} {children : List (Formula α)} : p connective children →
      (∀ child ∈ children, EveryGroup p child) → EveryGroup p (.group connective children)

abbrev IsSimple : Formula α → Prop :=
  EveryGroup fun _ children => 2 ≤ children.length

abbrev IsFlat : Formula α → Prop :=
  EveryGroup fun connective children =>
    2 ≤ children.length ∧ ∀ child ∈ children, ∀ parts, child ≠ .group connective parts

theorem everyGroup_group_iff {p : Connective → List (Formula α) → Prop} {connective : Connective}
    {children : List (Formula α)} :
    EveryGroup p (.group connective children) ↔
      p connective children ∧ ∀ child ∈ children, EveryGroup p child := by
  constructor
  · intro h
    cases h with
    | group hp hchildren => exact ⟨hp, hchildren⟩
  · intro h
    exact .group h.1 h.2

theorem everyGroup_of_forall {p : Connective → List (Formula α) → Prop}
    (h : ∀ connective children, p connective children) (formula : Formula α) : formula.EveryGroup p := by
  induction formula with
  | atom a => exact .atom
  | group connective children ih => exact .group (h connective children) ih

theorem EveryGroup.mono {p q : Connective → List (Formula α) → Prop} {formula : Formula α}
    (hpq : ∀ connective children, p connective children → q connective children)
    (h : formula.EveryGroup p) : formula.EveryGroup q := by
  induction formula with
  | atom a => exact .atom
  | group connective children ih =>
    rw [everyGroup_group_iff] at h
    apply EveryGroup.group
    · exact hpq _ _ h.1
    · intro child hchild
      exact ih child hchild (h.2 child hchild)

theorem IsFlat.isSimple {formula : Formula α} (h : formula.IsFlat) : formula.IsSimple :=
  EveryGroup.mono (fun _ _ hflat => hflat.1) h

theorem IsSimple.forall_ne_nil {formula : Formula α} (h : formula.IsSimple) :
    formula.EveryGroup fun _ children => children ≠ [] := by
  refine EveryGroup.mono ?_ h
  intro _ children hlength hnil
  rw [hnil, List.length_nil] at hlength
  exact absurd hlength (by decide)

theorem IsFlat.forall_ne_nil {formula : Formula α} (h : formula.IsFlat) :
    formula.EveryGroup fun _ children => children ≠ [] :=
  h.isSimple.forall_ne_nil

theorem IsSimple.isEmpty_eq_false {formula : Formula α} (h : formula.IsSimple) :
    formula.isEmpty = false := by
  induction formula with
  | atom a => exact isEmpty_atom a
  | group connective children ih =>
    rcases everyGroup_group_iff.mp h with ⟨hlength, hchildren⟩
    cases children with
    | nil => simp at hlength
    | cons child children =>
      have hchild := ih child List.mem_cons_self (hchildren child List.mem_cons_self)
      rw [isEmpty_group, List.all_cons, hchild, Bool.false_and]

theorem IsSimple.one_le_size {formula : Formula α} (h : formula.IsSimple) : 1 ≤ formula.size := by
  have hempty := h.isEmpty_eq_false
  unfold isEmpty at hempty
  rw [List.isEmpty_eq_false_iff] at hempty
  exact List.length_pos_iff.mpr hempty

theorem IsSimple.everyGroup_isEmpty_eq_false {formula : Formula α} (h : formula.IsSimple) :
    formula.EveryGroup fun connective children => (group connective children).isEmpty = false := by
  induction formula with
  | atom a => exact .atom
  | group connective children ih =>
    rcases everyGroup_group_iff.mp h with ⟨_, hchildren⟩
    apply EveryGroup.group
    · exact IsSimple.isEmpty_eq_false h
    · intro child hchild
      exact ih child hchild (hchildren child hchild)

theorem ne_group_of_map {f : α → β} {formula : Formula α} {connective : Connective}
    (h : ∀ parts, formula ≠ .group connective parts) :
    ∀ parts, formula.map f ≠ .group connective parts := by
  intro parts hmap
  cases formula with
  | atom a =>
    rw [map_atom] at hmap
    cases hmap
  | group connective' children =>
    rw [map_group] at hmap
    cases hmap
    exact h children rfl

theorem IsFlat.map {f : α → β} {formula : Formula α} (h : formula.IsFlat) : (formula.map f).IsFlat := by
  induction formula with
  | atom a =>
    rw [map_atom]
    exact .atom
  | group connective children ih =>
    rcases everyGroup_group_iff.mp h with ⟨⟨hlength, hparts⟩, hchildren⟩
    rw [map_group]
    apply EveryGroup.group
    · rw [List.length_map, List.forall_mem_map]
      exact ⟨hlength, fun child hchild => ne_group_of_map (hparts child hchild)⟩
    · rw [List.forall_mem_map]
      intro child hchild
      exact ih child hchild (hchildren child hchild)

end Criteria.Formula
