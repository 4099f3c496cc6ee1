import Criteria.Proofs.Filter.Comparison

/-!
This module contains the proof that what joins the parts of a chain is found as the grammar of filter expressions
has it, and that the two connectives cannot be taken for each other.
-/

namespace Criteria.Filter

open Grammar

variable {connective : Connective} {s rest : List Char}

theorem afterKeyword?_eq_some_iff {keyword : List Char} :
    afterKeyword? keyword s = some rest ↔
      ∃ word next tail, s = word ++ next :: tail ∧ word.map Char.toLower = keyword ∧
        (Text.isBlank next ∨ next = '(') ∧ rest = next :: tail := by
  unfold afterKeyword?
  dsimp only
  constructor
  · intro h
    split at h
    next hkeyword =>
      cases h
      rw [Bool.and_eq_true, decide_eq_true_iff] at hkeyword
      rcases hkeyword with ⟨hword, hnext⟩
      cases hdrop : s.drop keyword.length with
      | nil => simp [hdrop] at hnext
      | cons next tail =>
        refine ⟨s.take keyword.length, next, tail, ?_, hword, ?_, rfl⟩
        · rw [← hdrop, List.take_append_drop]
        · simpa [hdrop] using hnext
    next => cases h
  · intro h
    rcases h with ⟨word, next, tail, rfl, rfl, hnext, rfl⟩
    rw [List.length_map, List.take_left, List.drop_left, if_pos]
    simpa using hnext

theorem toLower_eq_of_isBlank {c : Char} (h : Text.isBlank c) : c.toLower = c := by
  unfold Char.toLower
  rw [dif_neg]
  intro hupper
  have hlow : 'A'.toNat ≤ c.toNat := hupper.1
  have hhigh : c.toNat ≤ 'Z'.toNat := hupper.2
  simp [Text.isBlank, Text.blankRanges] at h hlow hhigh
  omega

def startsSeparator (connective : Connective) (c : Char) : Prop :=
  c = separatorChar connective ∨ connective.toText.toList.head? = some c.toLower

theorem any_isBlank_separator (connective : Connective) :
    (separatorChar connective :: connective.toText.toList).any Text.isBlank = false := by
  cases connective <;> decide

theorem isBlank_eq_false_of_startsSeparator {c : Char} (h : startsSeparator connective c) :
    Text.isBlank c = false := by
  rw [← Bool.not_eq_true]
  intro hblank
  unfold startsSeparator at h
  rw [toLower_eq_of_isBlank hblank] at h
  have hmem : c ∈ separatorChar connective :: connective.toText.toList := by
    cases h with
    | inl hc =>
      rw [hc]
      apply List.mem_cons_self
    | inr hc =>
      apply List.mem_cons_of_mem
      apply List.mem_of_head? hc
  exact List.any_eq_false.mp (any_isBlank_separator connective) c hmem hblank

theorem skipBlanks_of_char (h : Blanks s (separatorChar connective :: rest)) :
    skipBlanks s = separatorChar connective :: rest := by
  apply skipBlanks_eq_cons_of_blanks h
  exact isBlank_eq_false_of_startsSeparator (.inl rfl)

theorem skipBlanks_of_word {word : List Char} (h : Blanks s (word ++ rest))
    (hword : word.map Char.toLower = connective.toText.toList) :
    ∃ c tail, word = c :: tail ∧ skipBlanks s = c :: (tail ++ rest) ∧
      connective.toText.toList.head? = some c.toLower := by
  cases word with
  | nil => cases connective <;> cases hword
  | cons c tail =>
    have hhead : connective.toText.toList.head? = some c.toLower := by
      rw [← hword]
      rfl
    have hskip := skipBlanks_eq_cons_of_blanks h (isBlank_eq_false_of_startsSeparator (.inr hhead))
    exact ⟨c, tail, rfl, hskip, hhead⟩

theorem ne_separatorChar {c : Char} (h : connective.toText.toList.head? = some c.toLower)
    (connective' : Connective) : c ≠ separatorChar connective' := by
  intro hc
  rw [hc] at h
  cases connective <;> cases connective' <;> exact absurd h (by decide)

theorem skipBlanks_of_separator (h : Separator connective s rest) :
    ∃ c tail, skipBlanks s = c :: tail ∧ startsSeparator connective c := by
  cases h with
  | char hblanks => exact ⟨_, _, skipBlanks_of_char hblanks, .inl rfl⟩
  | word hblank hblanks hword _ =>
    have hskip := skipBlanks_of_word (.cons hblank hblanks) hword
    rcases hskip with ⟨c, tail, _, hskip, hhead⟩
    exact ⟨c, _, hskip, .inr hhead⟩

theorem separator_of_separator?_eq {shorter : Text.Shorter s}
    (h : separator? connective s = some shorter) : Separator connective s shorter.val := by
  unfold separator? at h
  dsimp only at h
  split at h
  next => cases h
  next c tail hskip =>
    split at h
    next hc =>
      cases h
      rw [hc] at hskip
      apply Separator.char
      apply blanks_of_skipBlanks_eq hskip
    next =>
      split at h
      next hlt =>
        split at h
        next => cases h
        next after hafter =>
          cases h
          rw [afterKeyword?_eq_some_iff] at hafter
          rcases hafter with ⟨word, next, tail, htext, hword, hnext, rfl⟩
          have hblanks := blanks_of_skipBlanks_eq hskip
          -- The text has become shorter, so there was a blank to skip.
          cases hblanks with
          | nil => exact absurd hlt (Nat.lt_irrefl _)
          | cons hblank hblanks =>
            rw [htext] at hblanks
            exact .word hblank hblanks hword hnext
      next => cases h

theorem separator?_eq_of_separator (h : Separator connective s rest) :
    ∃ shorter, separator? connective s = some shorter ∧ shorter.val = rest := by
  unfold separator?
  dsimp only
  cases h with
  | char hblanks =>
    have hskip := skipBlanks_of_char hblanks
    split
    next hnil =>
      rw [hskip] at hnil
      cases hnil
    next heq =>
      rw [hskip] at heq
      cases heq
      rw [if_pos rfl]
      exact ⟨_, rfl, rfl⟩
  | @word blank next s word rest hblank hblanks hword hnext =>
    have hskip := skipBlanks_of_word (.cons hblank hblanks) hword
    rcases hskip with ⟨c, tail, rfl, hskip, hhead⟩
    split
    next hnil =>
      rw [hskip] at hnil
      cases hnil
    next heq =>
      rw [hskip] at heq
      cases heq
      have hlt : (c :: (tail ++ next :: rest)).length < (blank :: s).length := by
        rw [← hskip, skipBlanks_eq_of_blanks (.cons hblank .nil)]
        apply Nat.lt_succ_of_le
        apply length_skipBlanks_le
      rw [if_neg (ne_separatorChar hhead connective), dif_pos hlt]
      have hafter : afterKeyword? connective.toText.toList (c :: (tail ++ next :: rest)) =
          some (next :: rest) := by
        rw [afterKeyword?_eq_some_iff]
        exact ⟨c :: tail, next, rest, rfl, hword, hnext, rfl⟩
      split
      next hnone =>
        rw [hafter] at hnone
        cases hnone
      next hsome =>
        rw [hafter] at hsome
        cases hsome
        exact ⟨_, rfl, rfl⟩

theorem ends_of_separator (h : Separator connective s rest) : Ends s := by
  cases h with
  | char hblanks =>
    apply ends_of_blanks hblanks
    apply ends_cons
    cases connective <;> decide
  | word hblank _ _ _ =>
    apply ends_cons
    apply isReserved_of_isBlank hblank

theorem eq_of_startsSeparator {connective' : Connective} {c : Char}
    (h : startsSeparator connective c) (h' : startsSeparator connective' c) :
    connective = connective' := by
  unfold startsSeparator at h h'
  cases h with
  | inl hc =>
    cases h' with
    | inl hc' =>
      rw [hc] at hc'
      cases connective <;> cases connective' <;> first | rfl | exact absurd hc' (by decide)
    | inr hhead' => exact absurd hc (ne_separatorChar hhead' connective)
  | inr hhead =>
    cases h' with
    | inl hc' => exact absurd hc' (ne_separatorChar hhead connective')
    | inr hhead' =>
      rw [← hhead] at hhead'
      cases connective <;> cases connective' <;> first | rfl | exact absurd hhead' (by decide)

theorem separator?_eq_none (h : ∀ c ∈ (skipBlanks s).head?, ¬startsSeparator connective c) :
    separator? connective s = none := by
  cases hseparator : separator? connective s with
  | none => rfl
  | some shorter =>
    have hskip := skipBlanks_of_separator (separator_of_separator?_eq hseparator)
    rcases hskip with ⟨c, tail, hskip, hstarts⟩
    rw [hskip] at h
    exact absurd hstarts (h c rfl)

end Criteria.Filter
