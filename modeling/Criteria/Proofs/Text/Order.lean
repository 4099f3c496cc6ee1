import Mathlib.Data.String.Basic

/-!
This module contains the proof that the order of texts by their characters is the order by their bytes. A greater character
has a greater first byte or, after the same first byte, greater digits.
-/

namespace Criteria.Text

def bytes (s : String) : List UInt8 :=
  s.toUTF8.data.toList

def leadByte (n : Nat) : Nat :=
  if n ≤ 0x7F then n
  else if n ≤ 0x7FF then 0xC0 + n / 64
  else if n ≤ 0xFFFF then 0xE0 + n / 64 ^ 2
  else 0xF0 + n / 64 ^ 3

def continuationCount (n : Nat) : Nat :=
  if n ≤ 0x7F then 0 else if n ≤ 0x7FF then 1 else if n ≤ 0xFFFF then 2 else 3

def continuationBytes : Nat → Nat → List UInt8
  | 0, _ => []
  | count + 1, n => UInt8.ofNat (n / 64 ^ count % 64 + 0x80) :: continuationBytes count n

variable {m n : Nat} {c d : Char}

theorem bytes_eq_flatMap (s : String) : bytes s = s.toList.flatMap String.utf8EncodeChar := by
  unfold bytes
  rw [String.toUTF8_eq_toByteArray, ← String.utf8Encode_toList, List.utf8Encode,
    List.toList_data_toByteArray]

theorem toNat_lt (c : Char) : c.toNat < 0x110000 := by
  cases c.valid with
  | inl h => exact Nat.lt_trans h (by decide)
  | inr h => exact h.2

theorem utf8EncodeChar_eq (c : Char) :
    String.utf8EncodeChar c =
      UInt8.ofNat (leadByte c.toNat) :: continuationBytes (continuationCount c.toNat) c.toNat := by
  have hlt := toNat_lt c
  unfold String.utf8EncodeChar leadByte continuationCount
  simp only [Char.toNat_val]
  split
  · rfl
  · split
    · have hlead : c.toNat / 64 % 32 = c.toNat / 64 := by omega
      simp [continuationBytes, hlead, Nat.add_comm]
    · split
      · have hlead : c.toNat / 4096 % 16 = c.toNat / 4096 := by omega
        simp [continuationBytes, hlead, Nat.add_comm]
      · have hlead : c.toNat / 262144 % 8 = c.toNat / 262144 := by omega
        simp [continuationBytes, hlead, Nat.add_comm]

theorem leadByte_lt_size (h : n < 0x110000) : leadByte n < UInt8.size := by
  unfold leadByte UInt8.size
  split_ifs <;> omega

theorem leadByte_lt_or_eq (h : m < n) :
    leadByte m < leadByte n ∨
      leadByte m = leadByte n ∧ continuationCount m = continuationCount n ∧
        m / 64 ^ continuationCount n = n / 64 ^ continuationCount n := by
  unfold leadByte continuationCount
  split_ifs <;> omega

theorem ofNat_lt_ofNat (h : m < n) (hn : n < UInt8.size) : UInt8.ofNat m < UInt8.ofNat n := by
  rw [UInt8.lt_iff_toNat_lt, UInt8.toNat_ofNat_of_lt' hn, UInt8.toNat_ofNat_of_lt' (h.trans hn)]
  exact h

theorem continuationBytes_append_lt {count : Nat} (hlead : m / 64 ^ count = n / 64 ^ count)
    (h : m < n) (s t : List UInt8) :
    continuationBytes count m ++ s < continuationBytes count n ++ t := by
  induction count with
  | zero =>
    rw [pow_zero, Nat.div_one, Nat.div_one] at hlead
    exact absurd hlead h.ne
  | succ count ih =>
    rw [pow_succ, ← Nat.div_div_eq_div_mul, ← Nat.div_div_eq_div_mul] at hlead
    have hle : m / 64 ^ count ≤ n / 64 ^ count := Nat.div_le_div_right h.le
    rw [continuationBytes, continuationBytes, List.cons_append, List.cons_append,
      List.cons_lt_cons_iff]
    by_cases heq : m / 64 ^ count = n / 64 ^ count
    · right
      rw [heq]
      exact ⟨rfl, ih heq⟩
    · left
      apply ofNat_lt_ofNat
      · omega
      · unfold UInt8.size
        omega

theorem utf8EncodeChar_append_lt (h : c < d) (s t : List UInt8) :
    String.utf8EncodeChar c ++ s < String.utf8EncodeChar d ++ t := by
  have hlt : c.toNat < d.toNat := h
  rw [utf8EncodeChar_eq, utf8EncodeChar_eq, List.cons_append, List.cons_append,
    List.cons_lt_cons_iff]
  cases leadByte_lt_or_eq hlt with
  | inl hlead =>
    left
    apply ofNat_lt_ofNat hlead
    apply leadByte_lt_size
    apply toNat_lt
  | inr h =>
    rcases h with ⟨hlead, hcount, hdigits⟩
    right
    rw [hlead, hcount]
    exact ⟨rfl, continuationBytes_append_lt hdigits hlt s t⟩

theorem flatMap_utf8EncodeChar_lt {s t : List Char} (h : s < t) :
    s.flatMap String.utf8EncodeChar < t.flatMap String.utf8EncodeChar := by
  induction s generalizing t with
  | nil =>
    cases t with
    | nil => exact absurd h (List.lt_irrefl _)
    | cons d t =>
      rw [List.flatMap_nil, List.flatMap_cons, utf8EncodeChar_eq]
      apply List.nil_lt_cons
  | cons c s ih =>
    cases t with
    | nil => exact absurd h (List.not_lt_nil _)
    | cons d t =>
      rw [List.flatMap_cons, List.flatMap_cons]
      rcases List.cons_lt_cons_iff.mp h with hlt | ⟨rfl, hlt⟩
      · apply utf8EncodeChar_append_lt hlt
      · apply List.append_left_lt
        exact ih hlt

/-- A text that comes before another by its characters comes before it by its bytes. -/
theorem bytes_lt_bytes {s t : String} (h : s < t) : bytes s < bytes t := by
  rw [bytes_eq_flatMap, bytes_eq_flatMap]
  exact flatMap_utf8EncodeChar_lt h

end Criteria.Text
