/-!
This module contains the blank characters, which are those with the Unicode property White_Space,
and the cutting away of unwanted characters at the ends of a text.
-/

namespace Criteria.Text

/--
The ranges of code points with the property White_Space, each with both of its ends, in order.
-/
def blankRanges : List (Nat × Nat) :=
  [(0x9, 0xD), (0x20, 0x20), (0x85, 0x85), (0xA0, 0xA0), (0x1680, 0x1680), (0x2000, 0x200A),
    (0x2028, 0x2029), (0x202F, 0x202F), (0x205F, 0x205F), (0x3000, 0x3000)]

def isBlank (c : Char) : Bool :=
  blankRanges.any fun range => range.1 ≤ c.toNat && c.toNat ≤ range.2

example : (blankRanges.map fun range => range.2 + 1 - range.1).sum = 25 := rfl

theorem isBlank_eq_false_of_isAlphanum {c : Char} (h : c.isAlphanum) : isBlank c = false := by
  rw [← Bool.not_eq_true]
  intro hblank
  have hcode : 48 ≤ c.toNat ∧ c.toNat ≤ 57 ∨ 65 ≤ c.toNat ∧ c.toNat ≤ 90 ∨
      97 ≤ c.toNat ∧ c.toNat ≤ 122 := by
    unfold Char.isAlphanum Char.isAlpha Char.isUpper Char.isLower Char.isDigit at h
    simp [UInt32.le_iff_toNat_le] at h
    omega
  simp [isBlank, blankRanges] at hblank
  omega

def dropTrailing (p : Char → Bool) (s : List Char) : List Char :=
  (s.reverse.dropWhile p).reverse

def trim (s : List Char) : List Char :=
  dropTrailing isBlank (s.dropWhile isBlank)

theorem exists_append_eq_dropTrailing (p : Char → Bool) (s : List Char) :
    ∃ t, s = dropTrailing p s ++ t ∧ ∀ c ∈ t, p c := by
  refine ⟨(s.reverse.takeWhile p).reverse, ?_, fun c hc => ?_⟩
  · rw [dropTrailing, ← List.reverse_append, List.takeWhile_append_dropWhile, List.reverse_reverse]
  · simp only [List.mem_reverse] at hc
    exact List.all_eq_true.1 List.all_takeWhile c hc

theorem not_of_getLast?_dropTrailing {p : Char → Bool} {s : List Char} {c : Char}
    (h : (dropTrailing p s).getLast? = some c) : p c = false := by
  rw [dropTrailing, List.getLast?_reverse] at h
  have := List.head?_dropWhile_not p s.reverse
  rw [h] at this
  simpa using this

theorem dropTrailing_append {p : Char → Bool} {s t : List Char} (hs : ∀ c ∈ s.getLast?, p c = false)
    (ht : ∀ c ∈ t, p c) : dropTrailing p (s ++ t) = s := by
  unfold dropTrailing
  rw [List.reverse_append, List.dropWhile_append_of_pos (by simpa using ht)]
  cases h : s.reverse with
  | nil => rw [List.dropWhile_nil, ← h, List.reverse_reverse]
  | cons c cs =>
    have hc : p c = false := by
      apply hs
      rw [Option.mem_def, List.getLast?_eq_head?_reverse, h, List.head?_cons]
    rw [List.dropWhile_cons_of_neg (by simp [hc]), ← h, List.reverse_reverse]

end Criteria.Text
