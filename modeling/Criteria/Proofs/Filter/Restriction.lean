import Criteria.Proofs.Condition
import Mathlib.Data.List.TakeWhile

/-!
This module contains the proof that no filter text loses its restriction on the way to a condition: only a text of
nothing but separators and blanks places no restriction, and of any other text every comparison becomes a leaf.
-/

namespace Criteria

namespace Filter

open Grammar

section Prepare

variable {quote : Char} {s content rest : List Char}

theorem suffix_of_unquote? (hquote : isQuote quote) (h : unquote? quote s = some (content, rest)) :
    rest <:+ s := by
  rcases holdsLocally_quoted hquote (quoted_of_unquote?_eq h) with ⟨front, hs, _⟩
  exact ⟨front, hs.symm⟩

theorem prefix_of_bareNullCheck? {symbol : List Char} (h : bareNullCheck? s = some symbol) :
    symbol <+: s := by
  unfold bareNullCheck? at h
  have hfound := List.find?_some h
  rw [Bool.and_eq_true, List.isPrefixOf_iff_prefix] at hfound
  exact hfound.1

theorem sublist_completeNullChecks (s : List Char) : s.Sublist (completeNullChecks s) := by
  fun_induction completeNullChecks s with
  | case1 => exact .slnil
  | case2 c s content rest hquoted _ ih =>
    split at hquoted
    next hquote =>
      rcases (suffix_of_unquote? hquote hquoted).trans (List.suffix_cons c s) with ⟨front, hfront⟩
      rw [← hfront]
      simpa using ih.append_left front
    next => cases hquoted
  | case3 c s _ symbol hbare _ ih =>
    rcases prefix_of_bareNullCheck? hbare with ⟨rest, hrest⟩
    rw [← hrest] at ih ⊢
    rw [List.drop_left, List.append_assoc] at *
    exact (ih.trans (List.sublist_append_right _ _)).append_left symbol
  | case4 c s _ _ ih => exact ih.cons_cons c

theorem dropTrailing_eq_nil_iff {p : Char → Bool} : Text.dropTrailing p s = [] ↔ ∀ c ∈ s, p c := by
  unfold Text.dropTrailing
  rw [List.reverse_eq_nil_iff, List.dropWhile_eq_nil_iff]
  simp

theorem endsFirmly_dropTrailing (h : Text.dropTrailing isTrailing s ≠ []) :
    EndsFirmly (Text.dropTrailing isTrailing s) := by
  have hlast := List.getLast?_eq_some_getLast h
  exact ⟨_, hlast, Text.not_of_getLast?_dropTrailing hlast⟩

theorem all_isBlank_prepare_iff {text : String} :
    (prepare text).toList.all Text.isBlank ↔ ∀ c ∈ text.toList, isTrailing c := by
  unfold prepare
  rw [String.toList_ofList]
  constructor
  · -- What is kept ends in a character that is not blank, so there is nothing that is kept. Nor is anything lost by
    -- completing the null checks.
    intro h
    have hnil : Text.dropTrailing isTrailing (completeNullChecks text.toList) = [] := by
      by_contra hne
      rw [all_isBlank_of_endsFirmly (endsFirmly_dropTrailing hne)] at h
      cases h
    intro c hc
    exact dropTrailing_eq_nil_iff.mp hnil c ((sublist_completeNullChecks _).subset hc)
  · intro h
    rw [completeNullChecks_of_isTrailing h, dropTrailing_eq_nil_iff.mpr h]
    rfl

end Prepare

section Simple

-- The recursion is that of the grammar.
mutual

theorem isSimple_of_chain {connective : Connective} {s rest : List Char} {value : Expression}
    (h : Chain connective s value rest) : value.IsSimple := by
  match h with
  | .single hpart => exact isSimple_of_part hpart
  | .group hparts =>
    apply Formula.EveryGroup.group
    · simp
    · exact isSimple_of_parts hparts

theorem isSimple_of_parts {connective : Connective} {s rest : List Char} {parts : List Expression}
    (h : Grammar.Parts connective s parts rest) : ∀ part ∈ parts, part.IsSimple := by
  match h with
  | .one hpart =>
    rw [List.forall_mem_singleton]
    exact isSimple_of_part hpart
  | .cons hpart _ hparts =>
    rw [List.forall_mem_cons]
    exact ⟨isSimple_of_part hpart, isSimple_of_parts hparts⟩

theorem isSimple_of_part {connective : Connective} {s rest : List Char} {value : Expression}
    (h : Part connective s value rest) : value.IsSimple := by
  match h with
  | .conjunction hchain => exact isSimple_of_chain hchain
  | .comparison .. => exact .atom
  | .parentheses _ hchain _ => exact isSimple_of_chain hchain

end

theorem isSimple_of_parse_eq_ok {text : String} {expression : Expression}
    (h : parse text = .ok expression) : expression.IsSimple := by
  rcases derives_of_parse_eq_ok h with ⟨_, _, _, hchain, _⟩
  exact isSimple_of_chain hchain

end Simple

end Filter

namespace Condition

open Criteria.Filter

variable {R : Type} {settings : Settings} {registry : Registry R} {text : String}
  {condition : Condition R}

theorem ofFilter_of_all_isTrailing (h : ∀ c ∈ text.toList, isTrailing c) :
    ofFilter settings registry text = .ok unrestricted := by
  unfold ofFilter
  dsimp only
  rw [if_pos (all_isBlank_prepare_iff.mpr h)]
  rfl

theorem exists_expression_of_ofFilter_eq_ok (h : ofFilter settings registry text = .ok condition)
    (htext : ¬∀ c ∈ text.toList, isTrailing c) :
    ∃ expression : Expression, parse (prepare text) = .ok expression ∧
      condition.size = expression.size ∧ condition.IsSimple := by
  rcases unrestricted_or_ofExpression_of_ofFilter_eq_ok h with ⟨hblank, _⟩ | ⟨expression, hparse, hcondition⟩
  · exact absurd (all_isBlank_prepare_iff.mp hblank) htext
  · have hsimple := isSimple_of_parse_eq_ok hparse
    exact ⟨expression, hparse, Formula.size_eq_of_traverse hcondition,
      Formula.isSimple_of_traverse hcondition hsimple⟩

/--
A filter text places no restriction if and only if it is made of separators and blanks only. Of any other text that is
read, every comparison becomes a leaf, there is at least one, and no group is without leaves.
-/
theorem ofFilter_isEmpty_iff_and_size_eq (settings : Settings) (registry : Registry R) (text : String) :
    ((∃ condition, ofFilter settings registry text = .ok condition ∧ condition.isEmpty) ↔
      ∀ c ∈ text.toList, c = ';' ∨ c = ',' ∨ Text.isBlank c) ∧
    ∀ condition, ofFilter settings registry text = .ok condition →
      (¬∀ c ∈ text.toList, c = ';' ∨ c = ',' ∨ Text.isBlank c) →
      ∃ expression : Expression, parse (prepare text) = .ok expression ∧
        1 ≤ condition.size ∧ condition.size = expression.size ∧
        condition.EveryGroup fun connective children =>
          Formula.isEmpty (.group connective children) = false := by
  have htrailing : (∀ c ∈ text.toList, c = ';' ∨ c = ',' ∨ Text.isBlank c) ↔
      ∀ c ∈ text.toList, isTrailing c := by
    simp only [isTrailing_iff, or_assoc]
  rw [htrailing]
  refine ⟨⟨?_, ?_⟩, ?_⟩
  · intro h
    rcases h with ⟨condition, hcondition, hempty⟩
    by_contra htext
    rcases exists_expression_of_ofFilter_eq_ok hcondition htext with ⟨_, _, _, hsimple⟩
    rw [hsimple.isEmpty_eq_false] at hempty
    cases hempty
  · intro h
    exact ⟨unrestricted, ofFilter_of_all_isTrailing h, rfl⟩
  · intro condition hcondition htext
    rcases exists_expression_of_ofFilter_eq_ok hcondition htext with
      ⟨expression, hparse, hsize, hsimple⟩
    exact ⟨expression, hparse, hsimple.one_le_size, hsize, hsimple.everyGroup_isEmpty_eq_false⟩

theorem ofFilter_isEmpty_iff_and_size_eq_cell :
    let registry : Registry (Option Value) := ⟨[.cell], by simp⟩
    let condition : Condition (Option Value) := .atom ⟨.cell, .like, [.string "D%"]⟩
    (∃ condition, ofFilter {} registry " ;,\n" = .ok condition ∧ condition.isEmpty) ∧
      ofFilter {} registry "cell==D*" = .ok condition ∧
      (¬∀ c ∈ "cell==D*".toList, c = ';' ∨ c = ',' ∨ Text.isBlank c) ∧
      ∃ expression : Expression, parse (prepare "cell==D*") = .ok expression ∧
        1 ≤ condition.size ∧ condition.size = expression.size ∧
        condition.EveryGroup fun connective children =>
          Formula.isEmpty (.group connective children) = false := by
  intro registry condition
  have htrailing : ∀ c ∈ " ;,\n".toList, isTrailing c := List.all_eq_true.mp (by decide)
  have hblank := (ofFilter_isEmpty_iff_and_size_eq {} registry " ;,\n").1.mpr fun c hc =>
    or_assoc.mp (isTrailing_iff.mp (htrailing c hc))
  have htext : ¬∀ c ∈ "cell==D*".toList, c = ';' ∨ c = ',' ∨ Text.isBlank c := by
    intro h
    exact absurd (h 'c' (by decide)) (by decide)
  have hsize := (ofFilter_isEmpty_iff_and_size_eq {} registry "cell==D*").2
  exact ⟨hblank, ofFilter_cell_eq_ok, htext, hsize condition ofFilter_cell_eq_ok htext⟩

end Condition

end Criteria
