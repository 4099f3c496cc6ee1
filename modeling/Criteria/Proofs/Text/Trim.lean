import Criteria.Text.Blank
import Mathlib.Data.List.TakeWhile

/-!
This module contains what trimming takes away from a text: the blanks around it and nothing else, so that what is left has
no blanks at its ends.
-/

namespace Criteria.Text

def IsBlanks (s : List Char) : Prop :=
  ∀ c ∈ s, isBlank c

instance (s : List Char) : Decidable (IsBlanks s) :=
  List.decidableBAll _ s

def IsTrimmed (s : List Char) : Prop :=
  (∀ c ∈ s.head?, isBlank c = false) ∧ ∀ c ∈ s.getLast?, isBlank c = false

instance (s : List Char) : Decidable (IsTrimmed s) :=
  @instDecidableAnd _ _ (Option.decidableForallMem _) (Option.decidableForallMem _)

variable {s before after : List Char}

theorem isTrimmed_of_not_isBlank (h : ∀ c ∈ s, isBlank c = false) : IsTrimmed s := by
  constructor
  · intro c hc
    exact h c (List.mem_of_head? hc)
  · intro c hc
    exact h c (List.mem_of_getLast? hc)

theorem dropTrailing_append_of_forall {p : Char → Bool} (h : ∀ c ∈ after, p c) (s : List Char) :
    dropTrailing p (s ++ after) = dropTrailing p s := by
  unfold dropTrailing
  rw [List.reverse_append, List.dropWhile_append_of_pos]
  intro c hc
  exact h c (List.mem_reverse.mp hc)

theorem dropTrailing_of_isTrimmed (h : IsTrimmed s) : dropTrailing isBlank s = s := by
  have hdrop := dropTrailing_append h.2 (List.forall_mem_nil _)
  rwa [List.append_nil] at hdrop

theorem trim_of_isTrimmed (h : IsTrimmed s) : trim s = s := by
  have hdrop : s.dropWhile isBlank = s := by
    cases s with
    | nil => rfl
    | cons c s =>
      apply List.dropWhile_cons_of_neg
      rw [h.1 c rfl]
      exact Bool.false_ne_true
  unfold trim
  rw [hdrop]
  exact dropTrailing_of_isTrimmed h

theorem trim_blanks_append (h : IsBlanks before) (s : List Char) : trim (before ++ s) = trim s := by
  unfold trim
  rw [List.dropWhile_append_of_pos h]

theorem trim_append_blanks (h : IsBlanks after) (s : List Char) : trim (s ++ after) = trim s := by
  unfold trim
  rw [List.dropWhile_append]
  split
  next hempty =>
    -- With nothing but blanks in front, the blanks at the end are dropped with them.
    rw [List.isEmpty_iff] at hempty
    rw [hempty, List.dropWhile_eq_nil_iff.mpr h]
  next => exact dropTrailing_append_of_forall h _

theorem trim_of_blanks_around (hbefore : IsBlanks before) (h : IsTrimmed s) (hafter : IsBlanks after) :
    trim (before ++ s ++ after) = s := by
  rw [trim_append_blanks hafter, trim_blanks_append hbefore, trim_of_isTrimmed h]

theorem trim_dropTrailing (s : List Char) : trim (dropTrailing isBlank s) = trim s := by
  rcases exists_append_eq_dropTrailing isBlank s with ⟨after, hs, hafter⟩
  have htrim := trim_append_blanks hafter (dropTrailing isBlank s)
  rw [← hs] at htrim
  exact htrim.symm

theorem trim_cons_of_not_isBlank {c : Char} (h : isBlank c = false) (s : List Char) :
    trim (c :: s) = c :: dropTrailing isBlank s := by
  rcases exists_append_eq_dropTrailing isBlank s with ⟨after, hs, hafter⟩
  unfold trim
  rw [List.dropWhile_cons_of_neg (by simp [h])]
  have hlast : ∀ d ∈ (c :: dropTrailing isBlank s).getLast?, isBlank d = false := by
    intro d hd
    cases hkept : dropTrailing isBlank s with
    | nil =>
      rw [hkept] at hd
      cases hd
      exact h
    | cons e kept =>
      rw [hkept, List.getLast?_cons_cons, ← hkept] at hd
      exact not_of_getLast?_dropTrailing hd
  have hdrop := dropTrailing_append hlast hafter
  rwa [List.cons_append, ← hs] at hdrop

theorem isBlanks_takeWhile (s : List Char) : IsBlanks (s.takeWhile isBlank) := by
  intro c hc
  exact List.all_eq_true.mp List.all_takeWhile c hc

theorem trim_dropWhile (s : List Char) : trim (s.dropWhile isBlank) = trim s := by
  have htrim := trim_blanks_append (isBlanks_takeWhile s) (s.dropWhile isBlank)
  rw [List.takeWhile_append_dropWhile] at htrim
  exact htrim.symm

theorem isTrimmed_trim (s : List Char) : IsTrimmed (trim s) := by
  constructor
  · intro c hc
    rw [← trim_dropWhile] at hc
    cases hs : s.dropWhile isBlank with
    | nil =>
      rw [hs] at hc
      cases hc
    | cons d rest =>
      have hd : isBlank d = false := by
        have hnot := List.head?_dropWhile_not isBlank s
        rw [hs] at hnot
        simpa using hnot
      rw [hs, trim_cons_of_not_isBlank hd] at hc
      cases hc
      exact hd
  · intro c hc
    exact not_of_getLast?_dropTrailing hc

theorem exists_eq_append_trim (s : List Char) :
    ∃ before after, s = before ++ trim s ++ after ∧ IsBlanks before ∧ IsBlanks after := by
  rcases exists_append_eq_dropTrailing isBlank (s.dropWhile isBlank) with ⟨after, hs, hafter⟩
  refine ⟨s.takeWhile isBlank, after, ?_, isBlanks_takeWhile s, hafter⟩
  unfold trim
  rw [List.append_assoc, ← hs, List.takeWhile_append_dropWhile]

theorem trim_eq_nil_iff : trim s = [] ↔ IsBlanks s := by
  constructor
  · intro h
    rcases exists_eq_append_trim s with ⟨before, after, hs, hbefore, hafter⟩
    rw [h, List.append_nil] at hs
    rw [hs]
    exact List.forall_mem_append.mpr ⟨hbefore, hafter⟩
  · intro h
    have htrim := trim_append_blanks h []
    rwa [List.nil_append] at htrim

end Criteria.Text
