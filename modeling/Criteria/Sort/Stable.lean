/-!
This module contains stable sorting by a comparison. Items are put into their places one by one, each
behind those that it is not less than.
-/

namespace Criteria

/--
Insert an item into a sorted list that is given from its last item to its first. It passes those items
that it is less than.
-/
def insertBackward {α : Type} (compare : α → α → Ordering) (a : α) : List α → List α
  | [] => [a]
  | b :: sorted => if (compare a b).isLT then b :: insertBackward compare a sorted else a :: b :: sorted

def stableSort {α : Type} (compare : α → α → Ordering) (items : List α) : List α :=
  (items.foldl (fun sorted a => insertBackward compare a sorted) []).reverse

theorem insertBackward_perm {α : Type} (compare : α → α → Ordering) (a : α) (sorted : List α) :
    (insertBackward compare a sorted).Perm (a :: sorted) := by
  induction sorted with
  | nil => exact .refl _
  | cons b sorted ih =>
    unfold insertBackward
    split
    · exact (ih.cons b).trans (.swap a b sorted)
    · exact .refl _

theorem stableSort_perm {α : Type} (compare : α → α → Ordering) (items : List α) :
    (stableSort compare items).Perm items := by
  suffices h : ∀ sorted : List α,
      (items.foldl (fun sorted a => insertBackward compare a sorted) sorted).Perm
        (sorted ++ items) from
    (List.reverse_perm _).trans ((h []).trans (by simp))
  induction items with
  | nil => simp
  | cons a items ih =>
    intro sorted
    refine (ih _).trans ?_
    refine ((insertBackward_perm compare a sorted).append_right items).trans ?_
    exact List.perm_middle.symm

example : stableSort compare [3, 1, 2] = [1, 2, 3] := by decide

end Criteria
