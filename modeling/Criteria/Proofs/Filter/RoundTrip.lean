import Criteria.Proofs.Filter.Completeness
import Criteria.Proofs.Filter.Writing
import Criteria.Proofs.Formula.Holds
import Criteria.Proofs.Formula.Shape
import Mathlib.Data.List.Basic

/-!
This module contains the proof that a written expression is read back. Parentheses are written only around
disjunctions in conjunctions, and groups of one child leave no trace, so what is read may be grouped in another way.
It has the same comparisons in the same order and the same meaning, and a flat expression is read back as it was.
-/

namespace Criteria.Filter

open Grammar

/--
The parts of the chain as which an expression is written. A group with the connective of the chain is spliced into
it, and any other is one part.
-/
def chainParts (expression : Expression) : Connective → List Expression :=
  expression.fold (fun comparison _ => [.atom comparison]) fun inner children outer =>
    let parts := children.flatMap fun child => child inner
    if inner = outer then parts else [ofChain inner parts]

def reread (expression : Expression) : Expression :=
  ofChain .or (chainParts expression .or)

section ChainParts

variable {connective connective' : Connective} {children : List Expression}

@[simp]
theorem chainParts_atom (comparison : Comparison) (connective : Connective) :
    chainParts (.atom comparison) connective = [.atom comparison] := by
  rw [chainParts, Formula.fold_atom]

theorem chainParts_group (inner outer : Connective) (children : List Expression) :
    chainParts (.group inner children) outer =
      if inner = outer then children.flatMap fun child => chainParts child inner
      else [ofChain inner (children.flatMap fun child => chainParts child inner)] := by
  rw [chainParts, Formula.fold_group, List.flatMap_map]
  rfl

@[simp]
theorem chainParts_group_self (connective : Connective) (children : List Expression) :
    chainParts (.group connective children) connective =
      children.flatMap fun child => chainParts child connective := by
  rw [chainParts_group, if_pos rfl]

theorem chainParts_group_of_ne (h : connective ≠ connective') (children : List Expression) :
    chainParts (.group connective children) connective' =
      [ofChain connective (children.flatMap fun child => chainParts child connective)] := by
  rw [chainParts_group, if_neg h]

theorem atoms_ofChain (connective : Connective) (parts : List Expression) :
    (ofChain connective parts).atoms = parts.flatMap Formula.atoms := by
  unfold ofChain
  split
  next part => rw [List.flatMap_singleton]
  next => rw [Formula.atoms_group]

theorem flatMap_atoms_chainParts (expression : Expression) (connective : Connective) :
    (chainParts expression connective).flatMap Formula.atoms = expression.atoms := by
  induction expression using Formula.ind generalizing connective with
  | atom comparison => rw [chainParts_atom, List.flatMap_singleton]
  | group inner children ih =>
    have hchildren : (children.flatMap fun child => chainParts child inner).flatMap Formula.atoms =
        children.flatMap Formula.atoms := by
      rw [List.flatMap_assoc]
      apply List.flatMap_congr
      intro child hchild
      exact ih child hchild inner
    rw [chainParts_group, Formula.atoms_group, ← hchildren]
    split
    next => rfl
    next => rw [List.flatMap_singleton, atoms_ofChain]

theorem atoms_reread (expression : Expression) : (reread expression).atoms = expression.atoms := by
  rw [reread, atoms_ofChain, flatMap_atoms_chainParts]

end ChainParts

section Meaning

variable {test : Comparison → Bool}

theorem holds_ofChain (connective : Connective) (parts : List Expression) :
    (ofChain connective parts).holds test = (Formula.group connective parts).holds test := by
  unfold ofChain
  split
  next part => rw [Formula.holds_group_singleton]
  next => rfl

theorem isEmpty_group_chainParts (expression : Expression) (connective : Connective) :
    (Formula.group connective (chainParts expression connective)).isEmpty = expression.isEmpty := by
  unfold Formula.isEmpty
  rw [Formula.atoms_group, flatMap_atoms_chainParts]

theorem holds_group_chainParts (expression : Expression) (connective : Connective) :
    (Formula.group connective (chainParts expression connective)).holds test =
      expression.holds test := by
  induction expression using Formula.ind generalizing connective with
  | atom comparison => rw [chainParts_atom, Formula.holds_group_singleton]
  | group inner children ih =>
    have hchildren : (Formula.group inner
        (children.flatMap fun child => chainParts child inner)).holds test =
          (Formula.group inner children).holds test := by
      apply Formula.holds_group_flatMap
      · intro child hchild
        exact ih child hchild inner
      · intro child _
        apply isEmpty_group_chainParts
    rw [chainParts_group, ← hchildren]
    split
    next heq => rw [heq]
    next => rw [Formula.holds_group_singleton, holds_ofChain]

theorem holds_reread (expression : Expression) :
    (reread expression).holds test = expression.holds test := by
  rw [reread, holds_ofChain, holds_group_chainParts]

end Meaning

section Flat

variable {connective : Connective} {expression : Expression} {children : List Expression}

theorem ofChain_of_two_le (h : 2 ≤ children.length) :
    ofChain connective children = .group connective children := by
  unfold ofChain
  split
  next => simp at h
  next => rfl

theorem flatMap_chainParts (h : ∀ child ∈ children, chainParts child connective = [child]) :
    (children.flatMap fun child => chainParts child connective) = children := by
  rw [List.flatMap_congr h, List.flatMap_singleton']

theorem chainParts_of_isFlat (hflat : expression.IsFlat)
    (h : ∀ parts, expression ≠ .group connective parts) :
    chainParts expression connective = [expression] := by
  induction expression using Formula.ind generalizing connective with
  | atom comparison => rw [chainParts_atom]
  | group inner children ih =>
    rcases Formula.everyGroup_group_iff.mp hflat with ⟨⟨hlength, hparts⟩, hchildren⟩
    have hne : inner ≠ connective := by
      intro heq
      rw [heq] at h
      exact h children rfl
    have hsame : (children.flatMap fun child => chainParts child inner) = children := by
      apply flatMap_chainParts
      intro child hchild
      exact ih child hchild (hchildren child hchild) (hparts child hchild)
    rw [chainParts_group_of_ne hne, hsame, ofChain_of_two_le hlength]

theorem reread_of_isFlat (hflat : expression.IsFlat) : reread expression = expression := by
  unfold reread
  by_cases hor : ∃ children, expression = .group .or children
  · rcases hor with ⟨children, rfl⟩
    rcases Formula.everyGroup_group_iff.mp hflat with ⟨⟨hlength, hparts⟩, hchildren⟩
    rw [chainParts_group_self, flatMap_chainParts, ofChain_of_two_le hlength]
    intro child hchild
    exact chainParts_of_isFlat (hchildren child hchild) (hparts child hchild)
  · rw [not_exists] at hor
    rw [chainParts_of_isFlat hflat hor]
    rfl

end Flat

section Text

variable {connective : Connective} {rest : List Char}

theorem parts_append {connective : Connective} {s s₁ s₂ rest : List Char}
    {parts parts' : List Expression}
    (hparts : Grammar.Parts connective s parts s₁) (hseparator : Separator connective s₁ s₂)
    (hparts' : Grammar.Parts connective s₂ parts' rest) :
    Grammar.Parts connective s (parts ++ parts') rest := by
  induction parts generalizing s with
  | nil => cases hparts
  | cons part parts ih =>
    cases hparts with
    | one hpart => exact .cons hpart hseparator hparts'
    | cons hpart hfirst hothers => exact .cons hpart hfirst (ih hothers)

theorem parts_intercalate {children : List Expression} {writeOne : Expression → List Char}
    {partsOf : Expression → List Expression} (hne : children ≠ [])
    (h : ∀ child ∈ children, ∀ rest, Grammar.Parts connective (writeOne child ++ rest) (partsOf child) rest) :
    Grammar.Parts connective
      (List.intercalate [separatorChar connective] (children.map writeOne) ++ rest)
      (children.flatMap partsOf) rest := by
  induction children with
  | nil => exact absurd rfl hne
  | cons child children ih =>
    rw [List.forall_mem_cons] at h
    cases children with
    | nil =>
      rw [List.map_singleton, List.intercalate_singleton, List.flatMap_singleton]
      exact h.1 rest
    | cons second children =>
      have hothers := ih (List.cons_ne_nil _ _) h.2
      rw [List.map_cons] at hothers ⊢
      rw [List.map_cons, List.intercalate_cons_cons, List.append_assoc, List.append_assoc,
        List.flatMap_cons]
      exact parts_append (h.1 _) (.char .nil) hothers

theorem writeChild_of_needsParentheses {α : Type} {writeAtom : α → List Char} {child : Formula α}
    (h : needsParentheses connective child) :
    writeChild writeAtom connective child = '(' :: (write writeAtom child ++ [')']) := by
  rw [writeChild, if_pos h]
  rfl

theorem writeChild_of_not_needsParentheses {α : Type} {writeAtom : α → List Char}
    {child : Formula α} (h : needsParentheses connective child = false) :
    writeChild writeAtom connective child = write writeAtom child := by
  rw [writeChild, if_neg (by simp [h])]

theorem parts_writeChild {expression : Expression}
    (hcomparisons : ∀ comparison ∈ expression.atoms, comparison.IsWritable)
    (hgroups : expression.EveryGroup fun _ children => children ≠ []) (connective : Connective)
    (rest : List Char) :
    Grammar.Parts connective (writeChild Comparison.write connective expression ++ rest)
      (chainParts expression connective) rest := by
  induction expression using Formula.ind generalizing connective rest with
  | atom comparison =>
    have hpart := part_write (hcomparisons comparison (by simp)) rest
    rw [chainParts_atom]
    cases connective with
    | and => exact .one hpart
    | or => exact .one (.conjunction (.single hpart))
  | group inner children ih =>
    rcases Formula.everyGroup_group_iff.mp hgroups with ⟨hne, hgroups⟩
    have hparts : ∀ rest, Grammar.Parts inner
        (write Comparison.write (.group inner children) ++ rest)
        (children.flatMap fun child => chainParts child inner) rest := by
      intro rest
      rw [write_group]
      apply parts_intercalate hne
      intro child hchild rest
      apply ih child hchild _ (hgroups child hchild)
      exact Formula.forall_mem_atoms_group_iff.mp hcomparisons child hchild
    by_cases heq : inner = connective
    · subst heq
      rw [chainParts_group_self, writeChild_of_not_needsParentheses (by cases inner <;> rfl)]
      exact hparts rest
    · rw [chainParts_group_of_ne heq]
      cases connective with
      | and =>
        cases inner with
        | and => exact absurd rfl heq
        | or =>
          rw [writeChild_of_needsParentheses rfl, List.cons_append, List.append_assoc]
          exact .one (.parentheses .nil (chain_of_parts (hparts _)) .nil)
      | or =>
        rw [writeChild_of_not_needsParentheses rfl]
        cases inner with
        | and => exact .one (.conjunction (chain_of_parts (hparts rest)))
        | or => exact absurd rfl heq

theorem chain_write {expression : Expression}
    (hcomparisons : ∀ comparison ∈ expression.atoms, comparison.IsWritable)
    (hgroups : expression.EveryGroup fun _ children => children ≠ []) (rest : List Char) :
    Chain .or (write Comparison.write expression ++ rest) (reread expression) rest := by
  have hparts := parts_writeChild hcomparisons hgroups .or rest
  rw [writeChild_of_not_needsParentheses rfl] at hparts
  exact chain_of_parts hparts

theorem derives_toText {expression : Expression}
    (hcomparisons : ∀ comparison ∈ expression.atoms, comparison.IsWritable)
    (hgroups : expression.EveryGroup fun _ children => children ≠ []) :
    Derives expression.toText (reread expression) := by
  have hchain := chain_write hcomparisons hgroups []
  rw [List.append_nil] at hchain
  refine ⟨write Comparison.write expression, [], ?_, hchain, .nil⟩
  unfold Expression.toText
  rw [String.toList_ofList]
  exact .nil

/--
A written expression is read as one with the same comparisons in the same order and the same meaning, and if it is
flat, as itself.
-/
theorem exists_parse_toText_eq_ok (expression : Expression)
    (hcomparisons : ∀ comparison ∈ expression.atoms, comparison.IsWritable)
    (hgroups : expression.EveryGroup fun _ children => children ≠ []) :
    ∃ expression', parse expression.toText = .ok expression' ∧
      expression'.atoms = expression.atoms ∧
      (∀ test, expression'.holds test = expression.holds test) ∧
      (expression.IsFlat → expression' = expression) := by
  refine ⟨reread expression, ?_, atoms_reread expression, ?_, reread_of_isFlat⟩
  · apply parse_eq_ok_of_derives
    exact derives_toText hcomparisons hgroups
  · intro test
    apply holds_reread

theorem exists_parse_toText_eq_ok_title :
    let title : Comparison := ⟨"title", "==", ["it's \\ (here)"]⟩
    let year : Comparison := ⟨"year", "=in=", ["1", " 2;"]⟩
    let note : Comparison := ⟨"note", "!=", [""]⟩
    let expression : Expression := .group .and [.atom title, .group .or [.atom year, .atom note]]
    (∀ comparison ∈ expression.atoms, comparison.IsWritable) ∧
      (expression.EveryGroup fun _ children => children ≠ []) ∧
      ∃ expression', parse expression.toText = .ok expression' ∧
        expression'.atoms = expression.atoms ∧
        (∀ test, expression'.holds test = expression.holds test) ∧
        (expression.IsFlat → expression' = expression) := by
  intro title year note expression
  have hin : IsSymbol "=in=" :=
    @IsSymbol.named "in".toList (by decide) (List.all_eq_true.mp (by decide))
  have htitle : title.IsWritable :=
    ⟨by decide, isReserved_eq_false_of_any (by decide), .equal, by decide⟩
  have hyear : year.IsWritable :=
    ⟨by decide, isReserved_eq_false_of_any (by decide), hin, by decide⟩
  have hnote : note.IsWritable :=
    ⟨by decide, isReserved_eq_false_of_any (by decide), .notEqual, by decide⟩
  have hcomparisons : ∀ comparison ∈ expression.atoms, comparison.IsWritable := by
    simp [expression, htitle, hyear, hnote]
  have hgroups : expression.EveryGroup fun _ children => children ≠ [] := by
    simp [expression, Formula.everyGroup_group_iff, Formula.EveryGroup.atom]
  exact ⟨hcomparisons, hgroups, exists_parse_toText_eq_ok expression hcomparisons hgroups⟩

end Text

end Criteria.Filter
