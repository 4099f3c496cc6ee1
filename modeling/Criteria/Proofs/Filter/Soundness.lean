import Criteria.Proofs.Filter.Comparison
import Criteria.Proofs.Filter.Separator

/-!
This module contains the proof that the parser of filter expressions accepts only what their grammar derives, and
that it builds the derived expression.
-/

namespace Criteria.Filter

open Grammar

variable {connective : Connective} {s rest : List Char}

def FurtherParts (connective : Connective) (s : List Char) (parts : List Expression)
    (rest : List Char) : Prop :=
  parts = [] ∧ rest = s ∨
    ∃ s₁, Separator connective s s₁ ∧ Grammar.Parts connective s₁ parts rest

theorem parts_cons_iff {part : Expression} {parts : List Expression} :
    Grammar.Parts connective s (part :: parts) rest ↔
      ∃ s₁, Part connective s part s₁ ∧ FurtherParts connective s₁ parts rest := by
  unfold FurtherParts
  constructor
  · intro h
    cases h with
    | one hpart => exact ⟨_, hpart, .inl ⟨rfl, rfl⟩⟩
    | cons hpart hseparator hparts => exact ⟨_, hpart, .inr ⟨_, hseparator, hparts⟩⟩
  · intro h
    rcases h with ⟨s₁, hpart, h⟩
    cases h with
    | inl h =>
      rcases h with ⟨rfl, rfl⟩
      exact .one hpart
    | inr h =>
      rcases h with ⟨s₂, hseparator, hparts⟩
      exact .cons hpart hseparator hparts

theorem chain_of_parts {parts : List Expression} (h : Grammar.Parts connective s parts rest) :
    Chain connective s (ofChain connective parts) rest := by
  cases h with
  | one hpart => exact .single hpart
  | cons hpart hseparator hparts =>
    have hall := Grammar.Parts.cons hpart hseparator hparts
    cases hparts with
    | one => exact .group hall
    | cons => exact .group hall

-- The recursion is that of the parser.
mutual

theorem chain_of_reads {connective : Connective} {s rest : List Char} {value : Expression}
    (h : Reads (chain connective s) value rest) : Chain connective s value rest := by
  unfold chain at h
  rw [reads_bind_iff] at h
  rcases h with ⟨first, hfirst, h⟩
  dsimp only at h
  rw [reads_bind_iff] at h
  rcases h with ⟨others, hothers, h⟩
  rw [reads_pure_iff] at h
  rcases h with ⟨rfl, rfl⟩
  have hpart := part_of_reads (reads_of_eq_ok hfirst)
  have hlt := first.length_lt
  have hfurther := furtherParts_of_eq_ok hothers
  apply chain_of_parts
  rw [parts_cons_iff]
  exact ⟨_, hpart, hfurther⟩
termination_by 6 * s.length + (2 * level connective + 1)

theorem part_of_reads {connective : Connective} {s rest : List Char} {value : Expression}
    (h : Reads (part connective s) value rest) : Part connective s value rest := by
  unfold part at h
  cases connective with
  | or =>
    apply Part.conjunction
    apply chain_of_reads h
  | and => apply constraint_of_reads h
termination_by 6 * s.length + 2 * level connective
decreasing_by all_goals subst_vars; simp [level]

theorem furtherParts_of_eq_ok {connective : Connective} {s : List Char} {parts : Parts s}
    (h : furtherParts connective s = .ok parts) :
    FurtherParts connective s parts.value parts.rest := by
  unfold furtherParts at h
  split at h
  next =>
    rw [Except.pure_eq_ok_iff] at h
    rw [← h]
    exact .inl ⟨rfl, rfl⟩
  next tail hlt hseparator =>
    dsimp only at h
    rw [Except.bind_eq_ok_iff] at h
    rcases h with ⟨next, hnext, h⟩
    rw [Except.bind_eq_ok_iff] at h
    rcases h with ⟨others, hothers, h⟩
    rw [Except.pure_eq_ok_iff] at h
    rw [← h]
    have hlevel := level_le connective
    have hnextlt := next.length_lt
    have hpart := part_of_reads (reads_of_eq_ok hnext)
    have hfurther := furtherParts_of_eq_ok hothers
    have hparts := parts_cons_iff.mpr ⟨_, hpart, hfurther⟩
    exact .inr ⟨tail, separator_of_separator?_eq hseparator, hparts⟩
termination_by 6 * s.length

theorem constraint_of_reads {s rest : List Char} {value : Expression}
    (h : Reads (constraint s) value rest) : Part .and s value rest := by
  unfold constraint at h
  dsimp only at h
  split at h
  next inner hopen =>
    rw [reads_bind_iff] at h
    rcases h with ⟨inside, hinside, h⟩
    have hlt : inner.length < s.length := by
      have hs := length_skipBlanks_le s
      rw [hopen, List.length_cons] at hs
      omega
    have hchain := chain_of_reads (reads_of_eq_ok hinside)
    split at h
    next hclose =>
      rw [reads_pure_iff] at h
      rcases h with ⟨rfl, rfl⟩
      exact .parentheses (blanks_of_skipBlanks_eq hopen) hchain (blanks_of_skipBlanks_eq hclose)
    next => exact (not_reads_error h).elim
  next =>
    rw [reads_bind_iff] at h
    rcases h with ⟨single, hsingle, h⟩
    rw [reads_pure_iff] at h
    rcases h with ⟨rfl, rfl⟩
    have hcomparison := comparison_of_reads (reads_of_eq_ok hsingle)
    rcases hcomparison with ⟨selector, s₁, s₂, hselector, hsymbol, harguments, heq⟩
    have hpart := Part.comparison (blanks_skipBlanks s) hselector hsymbol harguments
    rw [← heq] at hpart
    exact hpart
termination_by 6 * s.length
decreasing_by simp only [level]; omega

end

theorem derives_of_expression_eq_ok {text : String} {value : Expression}
    (h : expression text.toList = .ok value) : Derives text value := by
  unfold expression at h
  dsimp only at h
  split at h
  next => cases h
  next =>
    rw [Except.bind_eq_ok_iff] at h
    rcases h with ⟨all, hall, h⟩
    split at h
    next hrest =>
      rw [Except.pure_eq_ok_iff] at h
      rw [← h]
      have hchain := chain_of_reads (reads_of_eq_ok hall)
      exact ⟨_, _, blanks_skipBlanks _, hchain, blanks_of_skipBlanks_eq hrest⟩
    next => cases h

theorem derives_of_parse_eq_ok {text : String} {value : Expression}
    (h : parse text = .ok value) : Derives text value := by
  unfold parse at h
  rw [Except.mapError_eq_ok_iff] at h
  exact derives_of_expression_eq_ok h

end Criteria.Filter
