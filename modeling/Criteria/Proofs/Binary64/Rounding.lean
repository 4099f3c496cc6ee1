import Criteria.Binary64.Nearest

/-!
This module contains the proof that rounding to binary64 keeps the order of numbers. The greater of two
quotients is rounded at the same scale or at a greater one, and between two scales there is always a power of
two, which is not rounded at all.
-/

namespace Criteria

theorem div_le_roundQuotient (num den : Nat) : num / den ≤ roundQuotient num den := by
  unfold roundQuotient
  dsimp only
  split
  · omega
  · split <;> omega

theorem roundQuotient_le_div_add_one (num den : Nat) : roundQuotient num den ≤ num / den + 1 := by
  unfold roundQuotient
  dsimp only
  split
  · omega
  · split <;> omega

theorem roundQuotient_mono {num num' : Nat} (den : Nat) (h : num ≤ num') :
    roundQuotient num den ≤ roundQuotient num' den := by
  have hdiv : num / den ≤ num' / den := Nat.div_le_div_right h
  cases Nat.eq_or_lt_of_le hdiv with
  | inl heq =>
    have hrest : num % den ≤ num' % den := by
      have hnum := Nat.div_add_mod num den
      have hnum' := Nat.div_add_mod num' den
      rw [heq] at hnum
      omega
    unfold roundQuotient
    dsimp only
    rw [heq]
    split
    · split
      · omega
      · split <;> omega
    · split
      · split
        · omega
        · split <;> omega
      · split
        · omega
        · split <;> omega
  | inr hlt =>
    have hlow := roundQuotient_le_div_add_one num den
    have hhigh := div_le_roundQuotient num' den
    omega

namespace Binary64

section Quotient

variable {num num' den : Nat}

theorem scaleOfQuotient_mono (den : Nat) (h : num ≤ num') :
    scaleOfQuotient num den ≤ scaleOfQuotient num' den := by
  have hdiv : num / den ≤ num' / den := Nat.div_le_div_right h
  unfold scaleOfQuotient
  apply Nat.sub_le_sub_right
  cases Nat.eq_zero_or_pos (num / den) with
  | inl hzero =>
    rw [hzero, Nat.log2_zero]
    apply Nat.zero_le
  | inr hpos =>
    rw [Nat.le_log2 (by omega)]
    exact Nat.le_trans (Nat.log2_self_le (by omega)) hdiv

theorem div_lt_of_scaleOfQuotient (num den : Nat) :
    num / (den <<< scaleOfQuotient num den) < 2 * leadingOne := by
  have hlog : (num / den).log2 < scaleOfQuotient num den + 53 := by
    unfold scaleOfQuotient
    omega
  have hlt : num / den < 2 ^ (scaleOfQuotient num den + 53) :=
    Nat.lt_of_lt_of_le Nat.lt_log2_self (Nat.pow_le_pow_right (by decide) hlog)
  rw [Nat.shiftLeft_eq, ← Nat.div_div_eq_div_mul, Nat.div_lt_iff_lt_mul (Nat.two_pow_pos _)]
  rw [Nat.pow_add, Nat.mul_comm] at hlt
  exact hlt

theorem le_div_of_scaleOfQuotient_pos (h : 0 < scaleOfQuotient num den) :
    leadingOne ≤ num / (den <<< scaleOfQuotient num den) := by
  have hlog : (num / den).log2 = scaleOfQuotient num den + 52 := by
    unfold scaleOfQuotient at h ⊢
    omega
  have hne : num / den ≠ 0 := by
    intro hzero
    rw [hzero, Nat.log2_zero] at hlog
    omega
  have hle : 2 ^ (scaleOfQuotient num den + 52) ≤ num / den := by
    rw [← hlog]
    exact Nat.log2_self_le hne
  rw [Nat.shiftLeft_eq, ← Nat.div_div_eq_div_mul, Nat.le_div_iff_mul_le (Nat.two_pow_pos _)]
  rw [Nat.pow_add, Nat.mul_comm] at hle
  exact hle

theorem magnitude_nearest (negative : Bool) (num den : Nat) :
    (nearest negative num den).magnitude =
      min (scaleOfQuotient num den * leadingOne +
        roundQuotient num (den <<< scaleOfQuotient num den)) infiniteMagnitude := by
  apply magnitude_ofMagnitude
  have hlt : infiniteMagnitude < signBit := by decide
  omega

theorem isNegative_nearest (negative : Bool) (num den : Nat) :
    (nearest negative num den).isNegative = negative := by
  apply isNegative_ofMagnitude
  have hlt : infiniteMagnitude < signBit := by decide
  omega

theorem isNaN_nearest (negative : Bool) (num den : Nat) : (nearest negative num den).isNaN = false := by
  have hle : (nearest negative num den).magnitude ≤ infiniteMagnitude := by
    rw [magnitude_nearest]
    apply Nat.min_le_right
  exact decide_eq_false (Nat.not_lt.mpr hle)

theorem magnitude_nearest_mono (negative negative' : Bool) (den : Nat) (h : num ≤ num') :
    (nearest negative num den).magnitude ≤ (nearest negative' num' den).magnitude := by
  rw [magnitude_nearest, magnitude_nearest]
  suffices hle : scaleOfQuotient num den * leadingOne +
      roundQuotient num (den <<< scaleOfQuotient num den) ≤
        scaleOfQuotient num' den * leadingOne +
          roundQuotient num' (den <<< scaleOfQuotient num' den) by
    omega
  cases Nat.eq_or_lt_of_le (scaleOfQuotient_mono den h) with
  | inl heq =>
    rw [heq]
    apply Nat.add_le_add_left
    apply roundQuotient_mono
    exact h
  | inr hlt =>
    -- One less than the power of two between the scales is rounded to the power at most.
    have hlow := roundQuotient_le_div_add_one num (den <<< scaleOfQuotient num den)
    have hhigh := div_le_roundQuotient num' (den <<< scaleOfQuotient num' den)
    have hbits := div_lt_of_scaleOfQuotient num den
    have hbits' := le_div_of_scaleOfQuotient_pos (Nat.zero_lt_of_lt hlt)
    have hscale : (scaleOfQuotient num den + 1) * leadingOne ≤ scaleOfQuotient num' den * leadingOne :=
      Nat.mul_le_mul_right leadingOne hlt
    rw [Nat.add_mul, Nat.one_mul] at hscale
    omega

end Quotient

theorem isNaN_ofInt (n : Int) : (ofInt n).isNaN = false := by
  apply isNaN_nearest

theorem orderKey_ofInt_of_neg {n : Int} (h : n < 0) :
    (ofInt n).orderKey = -((ofInt n).magnitude : Int) := by
  have hneg : (ofInt n).isNegative = true := (isNegative_nearest _ _ _).trans (decide_eq_true h)
  rw [orderKey, if_pos hneg]

theorem orderKey_ofInt_of_nonneg {n : Int} (h : 0 ≤ n) :
    (ofInt n).orderKey = ((ofInt n).magnitude : Int) := by
  have hneg : (ofInt n).isNegative = false :=
    (isNegative_nearest _ _ _).trans (decide_eq_false (Int.not_lt.mpr h))
  rw [orderKey, hneg]
  rfl

theorem magnitude_ofInt_mono {m n : Int} (h : m.natAbs ≤ n.natAbs) :
    (ofInt m).magnitude ≤ (ofInt n).magnitude := by
  apply magnitude_nearest_mono
  exact Nat.mul_le_mul_right quantaPerOne h

/-- Rounding keeps the order of the integers, though it may make some of them equal. -/
theorem orderKey_ofInt_mono {m n : Int} (h : m ≤ n) : (ofInt m).orderKey ≤ (ofInt n).orderKey := by
  cases Int.lt_or_le n 0 with
  | inl hn =>
    have hmag : (ofInt n).magnitude ≤ (ofInt m).magnitude := magnitude_ofInt_mono (by omega)
    rw [orderKey_ofInt_of_neg hn, orderKey_ofInt_of_neg (by omega)]
    omega
  | inr hn =>
    rw [orderKey_ofInt_of_nonneg hn]
    cases Int.lt_or_le m 0 with
    | inl hm =>
      rw [orderKey_ofInt_of_neg hm]
      omega
    | inr hm =>
      have hmag : (ofInt m).magnitude ≤ (ofInt n).magnitude := magnitude_ofInt_mono (by omega)
      rw [orderKey_ofInt_of_nonneg hm]
      omega

end Binary64

end Criteria
