import Criteria.Page

/-!
This module contains the proof that the numbered pages of one size tile a list: each of them goes on where the one before
it ends, and together they have all items once and in order, even if the offset of a page is beyond the greatest word.
-/

namespace Criteria.Page

variable {α : Type} {items : List α}

def itemsAt (start stop : Nat) (items : List α) : List α :=
  (items.zipIdx.filter fun entry => start ≤ entry.2 && entry.2 < stop).map Prod.fst

theorem map_filter_zipIdx (start stop first : Nat) (items : List α) :
    ((items.zipIdx first).filter fun entry => start ≤ entry.2 && entry.2 < stop).map Prod.fst =
      (items.take (stop - first)).drop (start - first) := by
  induction items generalizing first with
  | nil => simp
  | cons item items ih =>
    rw [List.zipIdx_cons, List.filter_cons]
    by_cases hstop : first < stop
    · have htake : stop - first = stop - (first + 1) + 1 := by omega
      rw [htake, List.take_succ_cons]
      by_cases hstart : start ≤ first
      · have hdrop : start - first = 0 := by omega
        have hdrop' : start - (first + 1) = 0 := by omega
        simp [hstart, hstop, ih, hdrop, hdrop']
      · have hdrop : start - first = start - (first + 1) + 1 := by omega
        simp [hstart, ih, hdrop]
    · have htake : stop - first = 0 := by omega
      have htake' : stop - (first + 1) = 0 := by omega
      simp [hstop, ih, htake, htake']

theorem itemsAt_eq (start stop : Nat) (items : List α) :
    itemsAt start stop items = (items.take stop).drop start := by
  unfold itemsAt
  rw [map_filter_zipIdx, Nat.sub_zero, Nat.sub_zero]

theorem itemsAt_of_length_le {start : Nat} (h : items.length ≤ start) (stop : Nat) :
    itemsAt start stop items = [] := by
  rw [itemsAt_eq, List.drop_eq_nil_iff, List.length_take]
  omega

theorem take_append_itemsAt {start stop : Nat} (h : start ≤ stop) (items : List α) :
    items.take start ++ itemsAt start stop items = items.take stop := by
  have htake : items.take start = (items.take stop).take start := by
    rw [List.take_take, Nat.min_eq_left h]
  rw [itemsAt_eq, htake, List.take_append_drop]

theorem apply_eq_itemsAt (offset limit : UInt64) (items : List α) :
    apply ⟨offset, some limit⟩ items =
      itemsAt offset.toNat (offset.toNat + limit.toNat) items := by
  rw [itemsAt_eq, ← List.take_drop]
  rfl

theorem length_apply (offset limit : UInt64) (items : List α) :
    (apply ⟨offset, some limit⟩ items).length =
      min limit.toNat (items.length - offset.toNat) := by
  simp [apply]

theorem apply_numbered (hlength : items.length < UInt64.size) {number : UInt64} (hnumber : 1 ≤ number)
    (size : UInt64) :
    (numbered number size).apply items =
      itemsAt ((number.toNat - 1) * size.toNat) (number.toNat * size.toNat) items := by
  have hoffset := toNat_offset_numbered number size
  have happly := apply_eq_itemsAt (numbered number size).offset size items
  by_cases hfits : (number.toNat - 1) * size.toNat < UInt64.size
  · have hone : 1 ≤ number.toNat := UInt64.le_iff_toNat_le.mp hnumber
    have hstop : (number.toNat - 1) * size.toNat + size.toNat = number.toNat * size.toNat := by
      rw [← Nat.succ_mul, Nat.succ_eq_add_one, Nat.sub_add_cancel hone]
    rw [Nat.min_eq_left (by omega)] at hoffset
    rw [← hstop, ← hoffset]
    exact happly
  -- The offset stays at the greatest word, and the list is too short to have items there or beyond.
  · rw [itemsAt_of_length_le (by omega)] at happly ⊢
    exact happly

theorem flatMap_numbered (hlength : items.length < UInt64.size) (size : UInt64) {count : Nat}
    (hcount : count < UInt64.size) :
    ((List.range count).flatMap fun i => (numbered (UInt64.ofNat (i + 1)) size).apply items) =
      items.take (count * size.toNat) := by
  -- The pages so far have the first items, and the next page goes on from there.
  induction count with
  | zero => simp
  | succ count ih =>
    have hnumber : (UInt64.ofNat (count + 1)).toNat = count + 1 := UInt64.toNat_ofNat_of_lt' hcount
    have hone : 1 ≤ UInt64.ofNat (count + 1) := by
      rw [UInt64.le_iff_toNat_le, hnumber]
      exact Nat.le_add_left 1 count
    rw [List.range_succ, List.flatMap_append, List.flatMap_singleton, ih (by omega),
      apply_numbered hlength hone, hnumber, Nat.add_sub_cancel]
    exact take_append_itemsAt (Nat.mul_le_mul_right _ (Nat.le_succ count)) items

/--
The page of a number has the items whose positions are in the range of the number, reckoned without bound. So as many
pages as the list takes are together the list. A page in general has as many of the items from its offset on as there are,
up to its limit.
-/
theorem apply_numbered_eq_itemsAt_and_tiles (hlength : items.length < UInt64.size) :
    (∀ number size : UInt64, 1 ≤ number →
      (numbered number size).apply items =
        itemsAt ((number.toNat - 1) * size.toNat) (number.toNat * size.toNat) items) ∧
    (∀ count size : UInt64, items.length ≤ count.toNat * size.toNat →
      ((List.range count.toNat).flatMap fun i =>
        (numbered (UInt64.ofNat (i + 1)) size).apply items) = items) ∧
    ∀ (rows : List α) (offset limit : UInt64),
      (apply ⟨offset, some limit⟩ rows).length = min limit.toNat (rows.length - offset.toNat) ∧
      apply ⟨offset, some limit⟩ rows =
        itemsAt offset.toNat (offset.toNat + limit.toNat) rows := by
  refine ⟨?_, ?_, ?_⟩
  · intro number size hnumber
    exact apply_numbered hlength hnumber size
  · intro count size hcount
    rw [flatMap_numbered hlength size count.toNat_lt]
    exact List.take_of_length_le hcount
  · intro rows offset limit
    exact ⟨length_apply offset limit rows, apply_eq_itemsAt offset limit rows⟩

theorem apply_numbered_eq_itemsAt_and_tiles_letters :
    let letters := ['a', 'b', 'c', 'd', 'e']
    letters.length < UInt64.size ∧
      (numbered 3 2).apply letters = ['e'] ∧
      (numbered 3 9223372036854775808).apply letters = [] ∧
      ((List.range 3).flatMap fun i => (numbered (UInt64.ofNat (i + 1)) 2).apply letters) = letters := by
  intro letters
  have hlength : letters.length < UInt64.size := by decide
  rcases apply_numbered_eq_itemsAt_and_tiles hlength with ⟨hnumbered, htiles, _⟩
  refine ⟨hlength, ?_, ?_, ?_⟩
  · rw [hnumbered 3 2 (by decide)]
    rfl
  · rw [hnumbered 3 9223372036854775808 (by decide)]
    exact itemsAt_of_length_le (by decide) _
  · exact htiles 3 2 (by decide)

end Criteria.Page
