import Criteria.Number
import Criteria.Proofs.Text.Trim
import Criteria.Text.Numeral

/-!
This module contains the proof that an integer in decimal notation is read back, as a numeral and as a number.
-/

namespace Criteria

namespace Text

section Digits

variable {s : List Char}

theorem numeral?_of_isDigit (hne : s ≠ []) (h : ∀ c ∈ s, c.isDigit) :
    numeral? s = some (valueOfDigits s) := by
  unfold numeral?
  rw [if_pos]
  rw [Bool.and_eq_true, Bool.not_eq_true', List.isEmpty_eq_false_iff, List.all_eq_true]
  exact ⟨hne, h⟩

theorem natural?_of_isDigit (hne : s ≠ []) (h : ∀ c ∈ s, c.isDigit) :
    natural? s = some (valueOfDigits s) := by
  unfold natural?
  split
  next => exact absurd (h '+' List.mem_cons_self) (by decide)
  next => exact numeral?_of_isDigit hne h

theorem integer?_of_isDigit (hne : s ≠ []) (h : ∀ c ∈ s, c.isDigit) :
    integer? s = some (valueOfDigits s : Int) := by
  unfold integer?
  split
  next => exact absurd (h '-' List.mem_cons_self) (by decide)
  next =>
    rw [natural?_of_isDigit hne h]
    rfl

theorem integer?_minus_of_isDigit (hne : s ≠ []) (h : ∀ c ∈ s, c.isDigit) :
    integer? ('-' :: s) = some (-(valueOfDigits s : Int)) := by
  simp only [integer?, numeral?_of_isDigit hne h]
  rfl

end Digits

section Decimal

theorem isDigit_of_mem_toDigits {n : Nat} : ∀ c ∈ Nat.toDigits 10 n, c.isDigit := by
  intro c hc
  exact Nat.isDigit_of_mem_toDigits (by decide) (by decide) hc

theorem valueOfDigits_toDigits (n : Nat) : valueOfDigits (Nat.toDigits 10 n) = n :=
  Nat.ofDigitChars_ten_toDigits

theorem toList_toString_of_nonneg {n : Int} (h : 0 ≤ n) :
    (toString n).toList = Nat.toDigits 10 n.toNat := by
  rw [Int.toString_eq_repr, Int.repr_eq_if, if_pos h, Nat.toList_repr]

theorem toList_toString_of_neg {n : Int} (h : n < 0) :
    (toString n).toList = '-' :: Nat.toDigits 10 (-n).toNat := by
  rw [Int.toString_eq_repr, Int.repr_eq_if, if_neg (by omega), String.toList_append, Nat.toList_repr]
  rfl

theorem mem_toList_toString {n : Int} {c : Char} (hc : c ∈ (toString n).toList) :
    c = '-' ∨ c.isDigit := by
  by_cases h : 0 ≤ n
  · rw [toList_toString_of_nonneg h] at hc
    exact .inr (isDigit_of_mem_toDigits c hc)
  · rw [toList_toString_of_neg (by omega), List.mem_cons] at hc
    exact hc.imp_right (isDigit_of_mem_toDigits c)

theorem toList_toString_ne_nil (n : Int) : (toString n).toList ≠ [] := by
  by_cases h : 0 ≤ n
  · rw [toList_toString_of_nonneg h]
    exact Nat.toDigits_ne_nil
  · rw [toList_toString_of_neg (by omega)]
    exact List.cons_ne_nil _ _

theorem integer?_toString (n : Int) : integer? (toString n).toList = some n := by
  by_cases h : 0 ≤ n
  · rw [toList_toString_of_nonneg h, integer?_of_isDigit Nat.toDigits_ne_nil isDigit_of_mem_toDigits,
      valueOfDigits_toDigits, Int.toNat_of_nonneg h]
  · rw [toList_toString_of_neg (by omega),
      integer?_minus_of_isDigit Nat.toDigits_ne_nil isDigit_of_mem_toDigits, valueOfDigits_toDigits]
    congr 1
    omega

theorem natural?_toString {n : Int} (h : 0 ≤ n) : natural? (toString n).toList = some n.toNat := by
  rw [toList_toString_of_nonneg h, natural?_of_isDigit Nat.toDigits_ne_nil isDigit_of_mem_toDigits,
    valueOfDigits_toDigits]

end Decimal

section Words

variable {n : Int}

theorem int64?_toString (h : fitsInt64 n) : int64? (toString n).toList = some (Int64.ofInt n) := by
  unfold int64?
  rw [integer?_toString]
  dsimp only
  rw [if_pos h]

theorem int64?_toString_eq_none (h : fitsInt64 n = false) : int64? (toString n).toList = none := by
  unfold int64?
  rw [integer?_toString]
  dsimp only
  rw [h]
  rfl

theorem uint64?_toString (h : 0 ≤ n) (hlt : n.toNat < UInt64.size) :
    uint64? (toString n).toList = some (UInt64.ofNat n.toNat) := by
  unfold uint64?
  rw [natural?_toString h]
  dsimp only
  rw [if_pos hlt]

end Words

theorem trim_toString (n : Int) : trim (toString n).toList = (toString n).toList := by
  apply trim_of_isTrimmed
  apply isTrimmed_of_not_isBlank
  intro c hc
  rcases mem_toList_toString hc with rfl | hdigit
  · decide
  · apply isBlank_eq_false_of_isAlphanum
    rw [Char.isAlphanum, hdigit, Bool.or_true]

end Text

namespace Number

def ofInt (n : Int) : Number :=
  if Text.fitsInt64 n then .signed (Int64.ofInt n) else .unsigned (UInt64.ofNat n.toNat)

def IsWord (n : Int) : Prop :=
  -0x8000000000000000 ≤ n ∧ n < 0x10000000000000000

instance (n : Int) : Decidable (IsWord n) :=
  inferInstanceAs (Decidable (_ ∧ _))

variable {n : Int}

theorem fitsInt64_iff (h : IsWord n) : Text.fitsInt64 n ↔ n < 0x8000000000000000 := by
  have hle := h.1
  unfold Text.fitsInt64
  simp only [Bool.and_eq_true, decide_eq_true_eq]
  omega

theorem toNat_lt_size (h : IsWord n) (hfits : Text.fitsInt64 n = false) :
    0 ≤ n ∧ n.toNat < UInt64.size := by
  have hlt := h.2
  have hge := mt (fitsInt64_iff h).mpr (by simp [hfits])
  unfold UInt64.size
  omega

theorem toInt?_ofInt (h : IsWord n) : (ofInt n).toInt? = some n := by
  unfold ofInt
  split
  next hfits => rw [toInt?, Text.int64_toInt_ofInt hfits]
  next hfits =>
    rw [Bool.not_eq_true] at hfits
    rcases toNat_lt_size h hfits with ⟨hpos, hlt⟩
    rw [toInt?, UInt64.toNat_ofNat_of_lt' hlt, Int.toNat_of_nonneg hpos]

theorem exists_ofInt_eq_signed_iff (h : IsWord n) :
    (∃ word, ofInt n = .signed word) ↔ n < 0x8000000000000000 := by
  rw [← fitsInt64_iff h]
  unfold ofInt
  split <;> simp_all

theorem read?_toString (h : IsWord n) : read? (toString n) = some (ofInt n) := by
  unfold read? ofInt
  dsimp only
  rw [Text.trim_toString]
  cases hfits : Text.fitsInt64 n with
  | true =>
    rw [Text.int64?_toString hfits]
    rfl
  | false =>
    rcases toNat_lt_size h hfits with ⟨hpos, hlt⟩
    rw [Text.int64?_toString_eq_none hfits, Text.uint64?_toString hpos hlt]
    rfl

end Number

end Criteria
