import Criteria.Sort.Stable
import Mathlib.Data.List.Basic

/-!
This module contains the proof that stable sorting puts items in order and leaves those that are equal in the order
as they were.
-/

namespace Criteria

variable {α : Type} {compare compare' : α → α → Ordering} {items : List α}

/--
A comparison orders the items of a list if it is the other way around for items that are swapped, and what does not
come after a second item does not come after a third either after which the second does not come. Items that are
equal in the order may differ.
-/
structure Orders (compare : α → α → Ordering) (items : List α) : Prop where
  swap : ∀ a ∈ items, ∀ b ∈ items, compare b a = (compare a b).swap
  trans : ∀ a ∈ items, ∀ b ∈ items, ∀ c ∈ items,
    (compare a b).isLE → (compare b c).isLE → (compare a c).isLE

namespace Orders

theorem refl (h : Orders compare items) {a : α} (ha : a ∈ items) : compare a a = .eq := by
  have hswap := h.swap a ha a ha
  cases hcompare : compare a a with
  | eq => rfl
  | _ =>
    rw [hcompare] at hswap
    cases hswap

theorem iff_transCmp :
    Orders compare items ↔ Std.TransCmp fun a b : { a // a ∈ items } => compare a.1 b.1 := by
  constructor
  · intro h
    exact {
      eq_swap := fun {a b} => h.swap b.1 b.2 a.1 a.2
      isLE_trans := fun {a b c} => h.trans a.1 a.2 b.1 b.2 c.1 c.2 }
  · intro h
    exact {
      swap := fun a ha b hb => h.eq_swap (a := ⟨b, hb⟩) (b := ⟨a, ha⟩)
      trans := fun a ha b hb c hc => h.isLE_trans (a := ⟨a, ha⟩) (b := ⟨b, hb⟩) (c := ⟨c, hc⟩) }

theorem of_key {κ : Type} [Ord κ] [Std.TransOrd κ] (key : α → κ)
    (h : ∀ a ∈ items, ∀ b ∈ items, compare a b = Ord.compare (key a) (key b)) :
    Orders compare items where
  swap a ha b hb := by
    rw [h a ha b hb, h b hb a ha]
    apply Std.OrientedOrd.eq_swap
  trans a ha b hb c hc := by
    rw [h a ha b hb, h b hb c hc, h a ha c hc]
    apply Std.TransOrd.isLE_trans

theorem comap {β : Type} {f : β → α} {others : List β} (h : Orders compare (others.map f)) :
    Orders (fun a b => compare (f a) (f b)) others where
  swap _ ha _ hb := h.swap _ (List.mem_map_of_mem ha) _ (List.mem_map_of_mem hb)
  trans _ ha _ hb _ hc :=
    h.trans _ (List.mem_map_of_mem ha) _ (List.mem_map_of_mem hb) _ (List.mem_map_of_mem hc)

theorem swapped (h : Orders compare items) : Orders (fun a b => (compare a b).swap) items where
  swap a ha b hb := by rw [h.swap a ha b hb]
  trans a ha b hb c hc := by
    rw [← h.swap a ha b hb, ← h.swap b hb c hc, ← h.swap a ha c hc]
    intro hba hcb
    exact h.trans c hc b hb a ha hcb hba

theorem lex (h : Orders compare items) (h' : Orders compare' items) :
    Orders (fun a b => (compare a b).then (compare' a b)) items := by
  rw [iff_transCmp] at *
  exact inferInstanceAs (Std.TransCmp (compareLex _ _))

theorem mono {others : List α} (h : Orders compare items) (hsubset : others ⊆ items) :
    Orders compare others where
  swap a ha b hb := h.swap a (hsubset ha) b (hsubset hb)
  trans a ha b hb c hc := h.trans a (hsubset ha) b (hsubset hb) c (hsubset hc)

theorem isLE_of_not_isLT (h : Orders compare items) {a b : α} (ha : a ∈ items) (hb : b ∈ items)
    (hlt : ¬(compare a b).isLT) : (compare b a).isLE := by
  rw [h.swap a ha b hb]
  cases hcompare : compare a b with
  | lt =>
    rw [hcompare] at hlt
    exact absurd rfl hlt
  | eq => rfl
  | gt => rfl

theorem not_isLT_of_isEq (h : Orders compare items) {a b c : α} (ha : a ∈ items) (hb : b ∈ items)
    (hc : c ∈ items) (hca : (compare c a).isEq) (hcb : (compare c b).isEq) :
    ¬(compare a b).isLT := by
  have hbc : (compare b c).isLE := by
    rw [h.swap c hc b hb, Ordering.isEq_iff_eq_eq.mp hcb]
    rfl
  have hca : (compare c a).isLE := by
    rw [Ordering.isEq_iff_eq_eq.mp hca]
    rfl
  have hba := h.trans b hb c hc a ha hbc hca
  rw [h.swap b hb a ha]
  cases hcompare : compare b a with
  | lt => simp
  | eq => simp
  | gt =>
    rw [hcompare] at hba
    cases hba

end Orders

theorem mem_insertBackward {a b : α} {sorted : List α} :
    b ∈ insertBackward compare a sorted ↔ b = a ∨ b ∈ sorted := by
  rw [(insertBackward_perm compare a sorted).mem_iff, List.mem_cons]

theorem pairwise_insertBackward {a : α} {sorted : List α} (h : Orders compare (a :: sorted))
    (hsorted : sorted.Pairwise fun b c => (compare c b).isLE) :
    (insertBackward compare a sorted).Pairwise fun b c => (compare c b).isLE := by
  induction sorted with
  | nil =>
    rw [insertBackward]
    apply List.pairwise_singleton
  | cons b sorted ih =>
    have ha : a ∈ a :: b :: sorted := List.mem_cons_self
    have hb : b ∈ a :: b :: sorted := List.mem_cons_of_mem a List.mem_cons_self
    rw [List.pairwise_cons] at hsorted
    rw [insertBackward]
    split
    case isTrue hlt =>
      rw [List.pairwise_cons]
      constructor
      · intro c hc
        rw [mem_insertBackward] at hc
        cases hc with
        | inl heq =>
          rw [heq, Ordering.isLT_iff_eq_lt.mp hlt]
          rfl
        | inr hmem => exact hsorted.1 c hmem
      · apply ih
        · apply h.mono
          apply List.cons_subset_cons
          apply List.subset_cons_self
        · exact hsorted.2
    case isFalse hlt =>
      have hba := h.isLE_of_not_isLT ha hb hlt
      rw [List.pairwise_cons, List.pairwise_cons]
      refine ⟨?_, hsorted⟩
      intro c hc
      rw [List.mem_cons] at hc
      cases hc with
      | inl heq =>
        rw [heq]
        exact hba
      | inr hmem =>
        have hc : c ∈ a :: b :: sorted := List.mem_cons_of_mem a (List.mem_cons_of_mem b hmem)
        exact h.trans c hc b hb a ha (hsorted.1 c hmem) hba

theorem filter_insertBackward {kind : α → Bool} {a : α} {sorted : List α}
    (h : ∀ b ∈ sorted, kind a → kind b → ¬(compare a b).isLT) :
    (insertBackward compare a sorted).filter kind = (a :: sorted).filter kind := by
  induction sorted with
  | nil => rw [insertBackward]
  | cons b sorted ih =>
    rw [List.forall_mem_cons] at h
    rw [insertBackward]
    split
    case isFalse => rfl
    case isTrue hlt =>
      rw [List.filter_cons, ih h.2]
      by_cases ha : kind a
      · have hb : ¬kind b := by
          intro hb
          exact h.1 ha hb hlt
        simp [ha, hb]
      · simp [ha, List.filter_cons]

theorem pairwise_foldl_insertBackward {sorted : List α} (h : Orders compare (items ++ sorted))
    (hsorted : sorted.Pairwise fun b c => (compare c b).isLE) :
    (items.foldl (fun sorted a => insertBackward compare a sorted) sorted).Pairwise
      fun b c => (compare c b).isLE := by
  induction items generalizing sorted with
  | nil => exact hsorted
  | cons a items ih =>
    rw [List.foldl_cons]
    apply ih
    · apply h.mono
      intro b hb
      rw [List.mem_append, mem_insertBackward] at hb
      rw [List.cons_append, List.mem_cons, List.mem_append]
      tauto
    · apply pairwise_insertBackward _ hsorted
      apply h.mono
      simp

theorem filter_foldl_insertBackward {kind : α → Bool} {sorted : List α}
    (h : ∀ a ∈ items ++ sorted, ∀ b ∈ items ++ sorted, kind a → kind b → ¬(compare a b).isLT) :
    (items.foldl (fun sorted a => insertBackward compare a sorted) sorted).filter kind =
      (items.reverse ++ sorted).filter kind := by
  induction items generalizing sorted with
  | nil => rfl
  | cons a items ih =>
    have hinsert : (insertBackward compare a sorted).filter kind = (a :: sorted).filter kind := by
      apply filter_insertBackward
      intro b hb
      exact h a (by simp) b (by simp [hb])
    have hsubset : items ++ insertBackward compare a sorted ⊆ a :: items ++ sorted := by
      intro b hb
      rw [List.mem_append, mem_insertBackward] at hb
      rw [List.cons_append, List.mem_cons, List.mem_append]
      tauto
    rw [List.foldl_cons, ih]
    · rw [List.filter_append, hinsert, ← List.filter_append, List.reverse_cons, List.append_assoc,
        List.singleton_append]
    · intro b hb c hc
      exact h b (hsubset hb) c (hsubset hc)

theorem pairwise_stableSort (h : Orders compare items) :
    (stableSort compare items).Pairwise fun a b => (compare a b).isLE := by
  unfold stableSort
  rw [List.pairwise_reverse]
  apply pairwise_foldl_insertBackward
  · rwa [List.append_nil]
  · exact .nil

theorem filter_stableSort {kind : α → Bool}
    (h : ∀ a ∈ items, ∀ b ∈ items, kind a → kind b → ¬(compare a b).isLT) :
    (stableSort compare items).filter kind = items.filter kind := by
  unfold stableSort
  rw [List.filter_reverse, filter_foldl_insertBackward]
  · rw [List.append_nil, List.filter_reverse, List.reverse_reverse]
  · rwa [List.append_nil]

theorem filter_isEq_stableSort (h : Orders compare items) {a : α} (ha : a ∈ items) :
    (stableSort compare items).filter (fun b => (compare a b).isEq) =
      items.filter fun b => (compare a b).isEq := by
  apply filter_stableSort
  intro b hb c hc hab hac
  exact h.not_isLT_of_isEq hb hc ha hab hac

/--
What it means that items are sorted: none is lost or added, none stands before another that it comes after, and those
that are equal in the order stand as they did.
-/
structure IsStablySorted (compare : α → α → Ordering) (items sorted : List α) : Prop where
  perm : sorted.Perm items
  pairwise : sorted.Pairwise fun a b => (compare a b).isLE
  stable : ∀ a ∈ items, (sorted.filter fun b => (compare a b).isEq) =
    items.filter fun b => (compare a b).isEq

theorem isStablySorted_stableSort (h : Orders compare items) :
    IsStablySorted compare items (stableSort compare items) where
  perm := stableSort_perm compare items
  pairwise := pairwise_stableSort h
  stable _ ha := filter_isEq_stableSort h ha

end Criteria
