import Criteria.Formula
import Criteria.Proofs.Except
import Criteria.Proofs.Formula.Shape

/-!
This module contains what becomes of the atoms and of the groups when a formula is traversed.
-/

namespace Criteria.Formula

variable {α β ε : Type} {f : α → Except ε β}

theorem mapM_flatMap_atoms {children : List (Formula α)}
    (h : ∀ child ∈ children, (do return (← child.traverse f).atoms) = child.atoms.mapM f) :
    (do return (← children.mapM (traverse f)).flatMap atoms) = (children.flatMap atoms).mapM f := by
  induction children with
  | nil => rfl
  | cons child children ih =>
    rw [List.forall_mem_cons] at h
    rw [List.mapM_cons, List.flatMap_cons, List.mapM_append, ← h.1, ← ih h.2]
    simp only [bind_assoc, pure_bind, List.flatMap_cons]

theorem mapM_atoms (formula : Formula α) :
    (do return (← formula.traverse f).atoms) = formula.atoms.mapM f := by
  induction formula with
  | atom a =>
    rw [traverse_atom, atoms_atom, List.mapM_cons, List.mapM_nil]
    simp only [bind_assoc, pure_bind, atoms_atom]
  | group connective children ih =>
    rw [traverse_group, atoms_group, ← mapM_flatMap_atoms ih]
    simp only [bind_assoc, pure_bind, atoms_group]

theorem forall₂_atoms_of_traverse {formula : Formula α} {formula' : Formula β}
    (h : formula.traverse f = .ok formula') :
    List.Forall₂ (fun a b => f a = .ok b) formula.atoms formula'.atoms := by
  rw [← Except.mapM_eq_ok_iff, ← mapM_atoms, h]
  rfl

theorem traverse_eq_ok_map {g : α → β} {formula : Formula α}
    (h : ∀ a ∈ formula.atoms, f a = .ok (g a)) : formula.traverse f = .ok (formula.map g) := by
  induction formula with
  | atom a =>
    rw [atoms_atom, List.forall_mem_singleton] at h
    rw [traverse_atom, h, map_atom]
    rfl
  | group connective children ih =>
    rw [forall_mem_atoms_group_iff] at h
    have hchildren : children.mapM (traverse f) = .ok (children.map (map g)) := by
      rw [Except.mapM_eq_ok_iff, List.forall₂_map_right_iff, List.forall₂_same]
      intro child hchild
      exact ih child hchild (h child hchild)
    rw [traverse_group, hchildren, map_group]
    rfl

theorem traverse_congr {g : α → Except ε β} {formula : Formula α} (h : ∀ a ∈ formula.atoms, f a = g a) :
    formula.traverse f = formula.traverse g := by
  induction formula with
  | atom a =>
    rw [atoms_atom, List.forall_mem_singleton] at h
    rw [traverse_atom, traverse_atom, h]
  | group connective children ih =>
    rw [forall_mem_atoms_group_iff] at h
    have hchildren : children.mapM (traverse f) = children.mapM (traverse g) := by
      apply Except.mapM_congr
      intro child hchild
      exact ih child hchild (h child hchild)
    rw [traverse_group, traverse_group, hchildren]

/-- What a formula is traversed to has its shape, with what each atom becomes in the place of the atom. -/
theorem traverse_eq_ok_iff [Nonempty β] {formula : Formula α} {formula' : Formula β} :
    formula.traverse f = .ok formula' ↔
      ∃ g : α → β, (∀ a ∈ formula.atoms, f a = .ok (g a)) ∧ formula' = formula.map g := by
  constructor
  · intro h
    have hatoms : ∀ a ∈ formula.atoms, ∃ b, f a = .ok b := by
      intro a ha
      rcases (forall₂_atoms_of_traverse h).flip.exists_of_mem ha with ⟨b, _, hb⟩
      exact ⟨b, hb⟩
    choose! g hg using hatoms
    have hmap := traverse_eq_ok_map hg
    rw [h] at hmap
    cases hmap
    exact ⟨g, hg, rfl⟩
  · intro h
    rcases h with ⟨g, hg, rfl⟩
    exact traverse_eq_ok_map hg

theorem traverse_eq_error_iff {formula : Formula α} {e : ε} :
    formula.traverse f = .error e ↔
      ∃ before a after, formula.atoms = before ++ a :: after ∧
        (∀ b ∈ before, ∃ c, f b = .ok c) ∧ f a = .error e := by
  rw [← Except.mapM_eq_error_iff, ← mapM_atoms, Except.bind_eq_error_iff]
  simp [pure, Except.pure]

theorem size_eq_of_traverse {formula : Formula α} {formula' : Formula β}
    (h : formula.traverse f = .ok formula') : formula'.size = formula.size :=
  (forall₂_atoms_of_traverse h).length_eq.symm

theorem isSimple_of_traverse {formula : Formula α} {formula' : Formula β}
    (h : formula.traverse f = .ok formula') (hsimple : formula.IsSimple) : formula'.IsSimple := by
  induction formula generalizing formula' with
  | atom a =>
    rw [traverse_atom, Except.bind_eq_ok_iff] at h
    rcases h with ⟨b, _, hformula'⟩
    cases hformula'
    exact .atom
  | group connective children ih =>
    rw [traverse_group, Except.bind_eq_ok_iff] at h
    rcases h with ⟨children', hchildren, hformula'⟩
    cases hformula'
    rw [Except.mapM_eq_ok_iff] at hchildren
    rcases everyGroup_group_iff.mp hsimple with ⟨hlength, hsimple⟩
    apply EveryGroup.group
    · rw [← hchildren.length_eq]
      exact hlength
    · intro child' hchild'
      rcases hchildren.exists_of_mem hchild' with ⟨child, hchild, htraverse⟩
      exact ih child hchild htraverse (hsimple child hchild)

theorem exists_of_mem_atoms_of_traverse {formula : Formula α} {formula' : Formula β}
    (h : formula.traverse f = .ok formula') {b : β} (hb : b ∈ formula'.atoms) :
    ∃ a ∈ formula.atoms, f a = .ok b :=
  (forall₂_atoms_of_traverse h).exists_of_mem hb

theorem exists_of_traverse_eq_error {formula : Formula α} {e : ε} (h : formula.traverse f = .error e) :
    ∃ a ∈ formula.atoms, f a = .error e := by
  rcases traverse_eq_error_iff.mp h with ⟨before, a, after, hatoms, _, ha⟩
  rw [hatoms]
  exact ⟨a, List.mem_append_cons_self, ha⟩

end Criteria.Formula
