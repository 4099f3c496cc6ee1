import Criteria.Number
import Criteria.Proofs.Binary64.Rounding

/-!
This module contains how far the comparison of numbers is an order. Integers are compared exactly and all else
in binary64, and what is equal in binary64 need not be equal exactly. So a binary64 number can be equal to two
integers of which one is less than the other, but there is no other way in which transitivity fails.
-/

namespace Criteria.Number

variable {a b c : Number}

def isNaN : Number → Bool
  | float x => x.isNaN
  | _ => false

def orderKey (a : Number) : Int :=
  a.toBinary64.orderKey

theorem isNaN_toBinary64 (a : Number) : a.toBinary64.isNaN = a.isNaN := by
  cases a with
  | signed n => apply Binary64.isNaN_ofInt
  | unsigned n => apply Binary64.isNaN_ofInt
  | float x => rfl

theorem toBinary64_of_toInt? {n : Int} (h : a.toInt? = some n) : a.toBinary64 = .ofInt n := by
  cases a with
  | float x => cases h
  | _ =>
    cases h
    rfl

theorem orderKey_mono {m n : Int} (ha : a.toInt? = some m) (hb : b.toInt? = some n) (h : m ≤ n) :
    a.orderKey ≤ b.orderKey := by
  unfold orderKey
  rw [toBinary64_of_toInt? ha, toBinary64_of_toInt? hb]
  exact Binary64.orderKey_ofInt_mono h

theorem compare_toBinary64 (ha : a.isNaN = false) (hb : b.isNaN = false) :
    a.toBinary64.compare b.toBinary64 = some (Ord.compare a.orderKey b.orderKey) := by
  apply Binary64.compare_eq_some
  · rwa [isNaN_toBinary64]
  · rwa [isNaN_toBinary64]

theorem compare_of_toInt?_eq_none (ha : a.isNaN = false) (hb : b.isNaN = false)
    (h : a.toInt? = none ∨ b.toInt? = none) :
    a.compare b = some (Ord.compare a.orderKey b.orderKey) := by
  rw [← compare_toBinary64 ha hb]
  cases h with
  | inl h =>
    cases a with
    | float => cases b <;> rfl
    | _ => cases h
  | inr h =>
    cases b with
    | float => cases a <;> rfl
    | _ => cases h

theorem exists_compare_eq_some (ha : a.isNaN = false) (hb : b.isNaN = false) :
    ∃ m n : Int, a.compare b = some (Ord.compare m n) ∧ b.compare a = some (Ord.compare n m) ∧
      (m ≤ n → a.orderKey ≤ b.orderKey) := by
  cases hm : a.toInt? with
  | none =>
    refine ⟨a.orderKey, b.orderKey, ?_, ?_, id⟩
    · exact compare_of_toInt?_eq_none ha hb (.inl hm)
    · exact compare_of_toInt?_eq_none hb ha (.inr hm)
  | some m =>
    cases hn : b.toInt? with
    | none =>
      refine ⟨a.orderKey, b.orderKey, ?_, ?_, id⟩
      · exact compare_of_toInt?_eq_none ha hb (.inr hn)
      · exact compare_of_toInt?_eq_none hb ha (.inl hn)
    | some n =>
      exact ⟨m, n, compare_of_toInt? hm hn, compare_of_toInt? hn hm, orderKey_mono hm hn⟩

theorem exists_compare_eq_some_and_swap (ha : a.isNaN = false) (hb : b.isNaN = false) :
    ∃ o, a.compare b = some o ∧ b.compare a = some o.swap := by
  rcases exists_compare_eq_some ha hb with ⟨m, n, hab, hba, _⟩
  refine ⟨_, hab, ?_⟩
  rw [hba, Int.compare_swap]

theorem compare_ne_some_gt_iff {m n : Int} : some (Ord.compare m n) ≠ some .gt ↔ m ≤ n := by
  rw [Ne, Option.some.injEq, Int.compare_eq_gt, Int.not_lt]

theorem orderKey_le_of_compare (ha : a.isNaN = false) (hb : b.isNaN = false)
    (h : a.compare b ≠ some .gt) : a.orderKey ≤ b.orderKey := by
  rcases exists_compare_eq_some ha hb with ⟨m, n, hab, _, hkey⟩
  rw [hab, compare_ne_some_gt_iff] at h
  exact hkey h

theorem compare_trans_of_toInt?_eq_none (ha : a.isNaN = false) (hb : b.isNaN = false)
    (hc : c.isNaN = false) (hab : a.compare b ≠ some .gt) (hbc : b.compare c ≠ some .gt)
    (h : a.toInt? = none ∨ c.toInt? = none) : a.compare c ≠ some .gt := by
  have hleft := orderKey_le_of_compare ha hb hab
  have hright := orderKey_le_of_compare hb hc hbc
  rw [compare_of_toInt?_eq_none ha hc h, compare_ne_some_gt_iff]
  omega

theorem compare_trans_of_toInt? {k m n : Int} (ha : a.toInt? = some m) (hb : b.toInt? = some k)
    (hc : c.toInt? = some n) (hab : a.compare b ≠ some .gt) (hbc : b.compare c ≠ some .gt) :
    a.compare c ≠ some .gt := by
  rw [compare_of_toInt? ha hb, compare_ne_some_gt_iff] at hab
  rw [compare_of_toInt? hb hc, compare_ne_some_gt_iff] at hbc
  rw [compare_of_toInt? ha hc, compare_ne_some_gt_iff]
  omega

theorem toBinary64_compare_eq_of_orderKey (ha : a.isNaN = false) (hb : b.isNaN = false)
    (h : a.orderKey = b.orderKey) : a.toBinary64.compare b.toBinary64 = some .eq := by
  rw [compare_toBinary64 ha hb, h, Int.compare_eq_eq.mpr rfl]

theorem same_float_iff {x y : Binary64} :
    (float x).same (float y) ↔ (x.isNaN = false ∧ y.isNaN = false) ∧ x.orderKey = y.orderKey := by
  unfold same Binary64.compare
  rw [decide_eq_true_iff]
  split
  next h =>
    rw [Bool.or_eq_true] at h
    rcases h with h | h <;> simp [h]
  next h =>
    rw [Bool.or_eq_true, not_or, Bool.not_eq_true, Bool.not_eq_true] at h
    simp [h]

theorem same_self (h : a.isNaN = false) : a.same a := by
  cases a with
  | float x => exact same_float_iff.mpr ⟨⟨h, h⟩, rfl⟩
  | _ => exact decide_eq_true rfl

theorem same_comm (a b : Number) : a.same b = b.same a := by
  cases a with
  | float x =>
    cases b with
    | float y =>
      rw [Bool.eq_iff_iff, same_float_iff, same_float_iff, and_comm (a := x.isNaN = false),
        eq_comm (a := x.orderKey)]
    | _ => rfl
  | _ => cases b <;> simp [same, eq_comm]

theorem same_trans (hab : a.same b) (hbc : b.same c) : a.same c := by
  cases a with
  | float x =>
    cases b with
    | float y =>
      cases c with
      | float z =>
        rw [same_float_iff] at *
        exact ⟨⟨hab.1.1, hbc.1.2⟩, hab.2.trans hbc.2⟩
      | _ => cases hbc
    | _ => cases hab
  | _ => cases b <;> cases c <;> simp_all [same]

theorem not_forall_compare_trans :
    ¬∀ a b c : Number, a.isNaN = false → b.isNaN = false → c.isNaN = false →
      a.compare b ≠ some .gt → b.compare c ≠ some .gt → a.compare c ≠ some .gt := by
  intro h
  have hnot := h (signed 9007199254740993) (float ⟨0x4340000000000000⟩) (signed 9007199254740992)
    rfl (by decide) rfl (by decide +kernel) (by decide +kernel)
  exact hnot (by decide +kernel)

/--
Of numbers other than NaNs any two are comparable, in either order with outcomes that are each other's reverse. A
number is greater than another although neither is it greater than a third nor the third greater than the
other in one case only: both are integers, and the third is a binary64 number that both are equal to once they
are rounded.
-/
theorem exists_compare_eq_some_and_compare_eq_gt_iff (ha : a.isNaN = false) (hb : b.isNaN = false)
    (hc : c.isNaN = false) :
    (∃ o, a.compare b = some o ∧ b.compare a = some o.swap) ∧
    (a.compare b ≠ some .gt → b.compare c ≠ some .gt →
      (a.compare c = some .gt ↔
        ∃ m n x, a.toInt? = some m ∧ c.toInt? = some n ∧ n < m ∧ b = .float x ∧
          (Binary64.ofInt m).compare x = some .eq ∧ (Binary64.ofInt n).compare x = some .eq)) := by
  refine ⟨exists_compare_eq_some_and_swap ha hb, ?_⟩
  intro hab hbc
  constructor
  · intro hac
    cases hm : a.toInt? with
    | none => exact absurd hac (compare_trans_of_toInt?_eq_none ha hb hc hab hbc (.inl hm))
    | some m =>
      cases hn : c.toInt? with
      | none => exact absurd hac (compare_trans_of_toInt?_eq_none ha hb hc hab hbc (.inr hn))
      | some n =>
        have hlt : n < m := by
          rwa [compare_of_toInt? hm hn, Option.some.injEq, Int.compare_eq_gt] at hac
        -- Rounding keeps the order of the two integers, so all three numbers are equal in binary64.
        have hleft := orderKey_le_of_compare ha hb hab
        have hright := orderKey_le_of_compare hb hc hbc
        have hkey : c.orderKey ≤ a.orderKey := orderKey_mono hn hm (Int.le_of_lt hlt)
        cases b with
        | float x =>
          refine ⟨m, n, x, rfl, rfl, hlt, rfl, ?_, ?_⟩
          · rw [← toBinary64_of_toInt? hm]
            exact toBinary64_compare_eq_of_orderKey ha hb (by omega)
          · rw [← toBinary64_of_toInt? hn]
            exact toBinary64_compare_eq_of_orderKey hc hb (by omega)
        | _ => exact absurd hac (compare_trans_of_toInt? hm rfl hn hab hbc)
  · intro h
    rcases h with ⟨m, n, _, hm, hn, hlt, _⟩
    rw [compare_of_toInt? hm hn, Int.compare_eq_gt.mpr hlt]

theorem exists_compare_eq_some_and_compare_eq_gt_iff_rounded :
    let a := signed 9007199254740993
    let b := float ⟨0x4340000000000000⟩
    let c := signed 9007199254740992
    (a.isNaN = false ∧ b.isNaN = false ∧ c.isNaN = false) ∧
    (∃ o, a.compare b = some o ∧ b.compare a = some o.swap) ∧
    (a.compare b ≠ some .gt ∧ b.compare c ≠ some .gt ∧
      (a.compare c = some .gt ↔
        ∃ m n x, a.toInt? = some m ∧ c.toInt? = some n ∧ n < m ∧ b = .float x ∧
          (Binary64.ofInt m).compare x = some .eq ∧ (Binary64.ofInt n).compare x = some .eq)) := by
  intro a b c
  have ha : a.isNaN = false := rfl
  have hb : b.isNaN = false := by decide
  have hc : c.isNaN = false := rfl
  have hab : a.compare b ≠ some .gt := by decide +kernel
  have hbc : b.compare c ≠ some .gt := by decide +kernel
  rcases exists_compare_eq_some_and_compare_eq_gt_iff ha hb hc with ⟨hcomparable, htrans⟩
  exact ⟨⟨ha, hb, hc⟩, hcomparable, hab, hbc, htrans hab hbc⟩

end Criteria.Number
