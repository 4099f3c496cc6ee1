import Criteria.Proofs.Filter.Restriction
import Mathlib.Algebra.BigOperators.Group.List.Basic

/-!
This module contains what printing does to an expression that has been read. The parser makes a group of what stands in
parentheses even within a group with the same connective, where the printer writes none. So an expression is read back as
it was if and only if it is flat, and otherwise as a flat one, which is stable.
-/

namespace Criteria.Filter

open Grammar

section Image

def writeGrouped (expression : Expression) : List Char :=
  expression.fold Comparison.write fun connective children =>
    '(' :: (List.intercalate [separatorChar connective] children ++ [')'])

theorem part_writeGrouped {expression : Expression} (hsimple : expression.IsSimple)
    (hcomparisons : ∀ comparison ∈ expression.atoms, comparison.IsWritable) (rest : List Char) :
    Part .and (writeGrouped expression ++ rest) expression rest := by
  induction expression using Formula.ind generalizing rest with
  | atom comparison =>
    unfold writeGrouped
    rw [Formula.fold_atom]
    exact part_write (hcomparisons comparison (by simp)) rest
  | group connective children ih =>
    rcases Formula.everyGroup_group_iff.mp hsimple with ⟨hlength, hchildren⟩
    have hchild : ∀ child ∈ children, ∀ rest,
        Part .and (writeGrouped child ++ rest) child rest := by
      intro child hchild rest
      apply ih child hchild (hchildren child hchild)
      exact Formula.forall_mem_atoms_group_iff.mp hcomparisons child hchild
    have hne : children ≠ [] := by
      intro hnil
      simp [hnil] at hlength
    have hparts : Grammar.Parts connective
        (List.intercalate [separatorChar connective] (children.map writeGrouped) ++ ')' :: rest)
        children (')' :: rest) := by
      have hparts := @parts_intercalate connective (')' :: rest) children writeGrouped (fun child => [child]) hne
      rw [List.flatMap_singleton'] at hparts
      apply hparts
      intro child hmem rest
      cases connective with
      | and => exact .one (hchild child hmem rest)
      | or => exact .one (.conjunction (.single (hchild child hmem rest)))
    have hchain := chain_of_parts hparts
    rw [ofChain_of_two_le hlength] at hchain
    unfold writeGrouped at hchain ⊢
    rw [Formula.fold_group, List.cons_append, List.append_assoc]
    cases connective with
    | and => exact .parentheses .nil (.single (.conjunction hchain)) .nil
    | or => exact .parentheses .nil hchain .nil

theorem arguments_ne_nil {s rest : List Char} {values : List String} (h : Arguments s values rest) :
    values ≠ [] := by
  cases h with
  | single => exact List.cons_ne_nil _ _
  | group hgroup => cases hgroup <;> exact List.cons_ne_nil _ _

-- The recursion is that of the grammar.
mutual

theorem isWritable_of_chain {connective : Connective} {s rest : List Char} {value : Expression}
    (h : Chain connective s value rest) : ∀ comparison ∈ value.atoms, comparison.IsWritable := by
  match h with
  | .single hpart => exact isWritable_of_part hpart
  | .group hparts =>
    rw [Formula.forall_mem_atoms_group_iff]
    exact isWritable_of_parts hparts

theorem isWritable_of_parts {connective : Connective} {s rest : List Char} {parts : List Expression}
    (h : Grammar.Parts connective s parts rest) :
    ∀ part ∈ parts, ∀ comparison ∈ part.atoms, comparison.IsWritable := by
  match h with
  | .one hpart =>
    rw [List.forall_mem_singleton]
    exact isWritable_of_part hpart
  | .cons hpart _ hparts =>
    rw [List.forall_mem_cons]
    exact ⟨isWritable_of_part hpart, isWritable_of_parts hparts⟩

theorem isWritable_of_part {connective : Connective} {s rest : List Char} {value : Expression}
    (h : Part connective s value rest) : ∀ comparison ∈ value.atoms, comparison.IsWritable := by
  match h with
  | .conjunction hchain => exact isWritable_of_chain hchain
  | .comparison _ hselector hsymbol harguments =>
    rcases many_iff.mp hselector with ⟨hne, _, hword⟩
    rw [Formula.atoms_atom, List.forall_mem_singleton]
    refine ⟨?_, ?_, (isSymbol_of_symbol hsymbol).2, arguments_ne_nil harguments⟩
    · rwa [String.toList_ofList]
    · rw [String.toList_ofList]
      intro c hc
      simpa using hword c hc
  | .parentheses _ hchain _ => exact isWritable_of_chain hchain

end

theorem isWritable_of_parse_eq_ok {text : String} {expression : Expression}
    (h : parse text = .ok expression) : ∀ comparison ∈ expression.atoms, comparison.IsWritable := by
  rcases derives_of_parse_eq_ok h with ⟨_, _, _, hchain, _⟩
  exact isWritable_of_chain hchain

/-- What the parser reads are the simple expressions, in any grouping. -/
theorem exists_parse_eq_ok_iff {expression : Expression} :
    (∃ text, parse text = .ok expression) ↔
      expression.IsSimple ∧ ∀ comparison ∈ expression.atoms, comparison.IsWritable := by
  constructor
  · intro h
    rcases h with ⟨text, hparse⟩
    exact ⟨isSimple_of_parse_eq_ok hparse, isWritable_of_parse_eq_ok hparse⟩
  · intro h
    have hpart := part_writeGrouped h.1 h.2 []
    rw [List.append_nil] at hpart
    refine ⟨String.ofList (writeGrouped expression), parse_eq_ok_of_derives ?_⟩
    refine ⟨writeGrouped expression, [], ?_, .single (.conjunction (.single hpart)), .nil⟩
    rw [String.toList_ofList]
    exact .nil

end Image

section Flat

variable {expression : Expression}

theorem length_le_length_flatMap {α β : Type} {f : α → List β} {as : List α}
    (h : ∀ a ∈ as, 1 ≤ (f a).length) : as.length ≤ (as.flatMap f).length := by
  have hsum := List.length_le_sum_of_one_le (as.map fun a => (f a).length) (List.forall_mem_map.mpr h)
  rwa [List.length_map, ← List.length_flatMap] at hsum

theorem isFlat_of_mem_chainParts (h : expression.IsSimple) (connective : Connective) :
    1 ≤ (chainParts expression connective).length ∧
      ∀ part ∈ chainParts expression connective,
        part.IsFlat ∧ ∀ parts, part ≠ .group connective parts := by
  induction expression using Formula.ind generalizing connective with
  | atom comparison =>
    rw [chainParts_atom, List.forall_mem_singleton]
    exact ⟨Nat.le_refl 1, .atom, by simp⟩
  | group inner children ih =>
    rcases Formula.everyGroup_group_iff.mp h with ⟨hlength, hchildren⟩
    have hle : 2 ≤ (children.flatMap fun child => chainParts child inner).length := by
      apply Nat.le_trans hlength
      apply length_le_length_flatMap
      intro child hchild
      exact (ih child hchild (hchildren child hchild) inner).1
    have hparts : ∀ part ∈ children.flatMap fun child => chainParts child inner,
        part.IsFlat ∧ ∀ parts, part ≠ .group inner parts := by
      intro part hpart
      rcases List.mem_flatMap.mp hpart with ⟨child, hchild, hpart⟩
      exact (ih child hchild (hchildren child hchild) inner).2 part hpart
    by_cases heq : inner = connective
    · rw [← heq, chainParts_group_self]
      exact ⟨Nat.le_of_succ_le hle, hparts⟩
    · rw [chainParts_group_of_ne heq, ofChain_of_two_le hle, List.forall_mem_singleton]
      refine ⟨Nat.le_refl 1, .group ⟨hle, fun part hpart => (hparts part hpart).2⟩ ?_, ?_⟩
      · intro part hpart
        exact (hparts part hpart).1
      · intro parts hgroup
        cases hgroup
        exact heq rfl

theorem isFlat_reread (h : expression.IsSimple) : (reread expression).IsFlat := by
  rcases isFlat_of_mem_chainParts h .or with ⟨hlength, hparts⟩
  unfold reread
  rcases hchain : chainParts expression .or with _ | ⟨first, _ | ⟨second, others⟩⟩
  · rw [hchain] at hlength
    cases hlength
  · rw [hchain] at hparts
    exact (hparts first List.mem_cons_self).1
  · rw [hchain] at hparts
    rw [ofChain_of_two_le (Nat.le_add_left 2 _)]
    apply Formula.EveryGroup.group
    · exact ⟨Nat.le_add_left 2 _, fun part hpart => (hparts part hpart).2⟩
    · intro part hpart
      exact (hparts part hpart).1

theorem parse_toText_eq_ok_reread (hsimple : expression.IsSimple)
    (hcomparisons : ∀ comparison ∈ expression.atoms, comparison.IsWritable) :
    parse expression.toText = .ok (reread expression) :=
  parse_eq_ok_of_derives (derives_toText hcomparisons hsimple.forall_ne_nil)

end Flat

/--
What the parser reads has no groups of fewer than two children. It survives being printed and read again if and only if no
group is a child of a group with the same connective. In any case what is read then is of this shape, and so it survives
from then on, and it has the same comparisons in the same order and the same meaning.
-/
theorem parse_toText_eq_ok_iff_isFlat {text : String} {expression : Expression}
    (h : parse text = .ok expression) :
    expression.IsSimple ∧
      (parse expression.toText = .ok expression ↔ expression.IsFlat) ∧
      ∃ expression' : Expression, parse expression.toText = .ok expression' ∧ expression'.IsFlat ∧
        parse expression'.toText = .ok expression' ∧ expression'.atoms = expression.atoms ∧
        ∀ test, expression'.holds test = expression.holds test := by
  have hsimple := isSimple_of_parse_eq_ok h
  have hcomparisons := isWritable_of_parse_eq_ok h
  have hreread := parse_toText_eq_ok_reread hsimple hcomparisons
  have hflat := isFlat_reread hsimple
  have hstable : parse (reread expression).toText = .ok (reread expression) := by
    rw [← atoms_reread] at hcomparisons
    have hstable := parse_toText_eq_ok_reread hflat.isSimple hcomparisons
    rwa [reread_of_isFlat hflat] at hstable
  refine ⟨hsimple, ?_, reread expression, hreread, hflat, hstable, atoms_reread expression, ?_⟩
  · rw [hreread]
    constructor
    · intro heq
      rwa [Except.ok.inj heq] at hflat
    · intro heq
      rw [reread_of_isFlat heq]
  · intro test
    apply holds_reread

theorem parse_toText_eq_ok_iff_isFlat_nested :
    let a : Expression := .atom ⟨"a", "==", ["1"]⟩
    let b : Expression := .atom ⟨"b", "==", ["2"]⟩
    let c : Expression := .atom ⟨"c", "==", ["3"]⟩
    let nested : Expression := .group .or [.group .and [a, .group .or [b, c]], c]
    parse "a==1;(b==2,c==3),c==3" = .ok nested ∧ nested.IsFlat ∧
      parse nested.toText = .ok nested ∧ nested.IsSimple ∧
      ∃ expression' : Expression, parse nested.toText = .ok expression' ∧ expression'.IsFlat ∧
        parse expression'.toText = .ok expression' ∧ expression'.atoms = nested.atoms ∧
        ∀ test, expression'.holds test = nested.holds test := by
  intro a b c nested
  have hparse : parse "a==1;(b==2,c==3),c==3" = .ok nested := by decide +kernel
  have hflat : nested.IsFlat := by
    simp [nested, a, b, c, Formula.everyGroup_group_iff, Formula.EveryGroup.atom]
  rcases parse_toText_eq_ok_iff_isFlat hparse with ⟨hsimple, hiff, hreread⟩
  exact ⟨hparse, hflat, hiff.mpr hflat, hsimple, hreread⟩

theorem not_forall_parse_toText_eq_ok :
    ¬∀ (text : String) (expression : Expression), parse text = .ok expression →
      expression.IsFlat ∧ parse expression.toText = .ok expression := by
  intro h
  let b : Expression := .atom ⟨"b", "==", ["2"]⟩
  let c : Expression := .atom ⟨"c", "==", ["3"]⟩
  let nested : Expression := .group .and [.atom ⟨"a", "==", ["1"]⟩, .group .and [b, c]]
  have hparse : parse "a==1;(b==2;c==3)" = .ok nested := by decide +kernel
  rcases Formula.everyGroup_group_iff.mp (h _ nested hparse).1 with ⟨⟨_, hparts⟩, _⟩
  exact hparts (.group .and [b, c]) (List.mem_cons_of_mem _ List.mem_cons_self) [b, c] rfl

end Criteria.Filter
