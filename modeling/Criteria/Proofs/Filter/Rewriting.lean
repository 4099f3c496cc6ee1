import Criteria.Proofs.Condition
import Criteria.Proofs.Filter.Traversal

/-!
This module contains the proof that the settings affect only what they name: equalities of one argument that is the word
`null` or has a wildcard. Any other filter means the same, or fails in the same way, in all settings, and without any
rewriting every leaf is what its comparison says.
-/

namespace Criteria

def Settings.literal : Settings where
  wildcardEquality := false
  nullLiteral := false

namespace Filter

variable {R : Type} {settings settings' : Settings} {registry : Registry R} {field : Field R} {operator : Operator}
  {arguments : List String}

structure Comparison.IsRewritable (registry : Registry R) (comparison : Comparison) : Prop where
  symbol : comparison.symbol = "==" ∨ comparison.symbol = "!="
  argument : ∃ argument, comparison.arguments = [argument] ∧
    (argument = "null" ∨ '*' ∈ argument.toList ∧
      ∃ field ∈ registry.fields, field.name = comparison.selector ∧ field.type = .string)

theorem exists_of_rewriteEquality?_eq_some {negated : Bool} {argument : String} {converted : Converted}
    (h : rewriteEquality? settings field negated argument = some converted) :
    argument = "null" ∨ '*' ∈ argument.toList ∧ field.type = .string := by
  unfold rewriteEquality? at h
  split at h
  next hwildcard =>
    simp only [Bool.and_eq_true, decide_eq_true_eq, List.contains_iff_mem] at hwildcard
    exact .inr ⟨hwildcard.2, hwildcard.1.2⟩
  next =>
    split at h
    next hnull =>
      simp only [Bool.and_eq_true, decide_eq_true_eq] at hnull
      exact .inl hnull.2
    next => cases h

theorem eq_of_mem_symbols {symbol : String} (h : (symbol, operator) ∈ Operator.symbols)
    (hoperator : operator = .equal ∨ operator = .notEqual) : symbol = "==" ∨ symbol = "!=" := by
  have hall : ∀ entry ∈ Operator.symbols, entry.2 = .equal ∨ entry.2 = .notEqual →
      entry.1 = "==" ∨ entry.1 = "!=" := by
    decide
  exact hall _ h hoperator

theorem exists_of_rewrite?_eq_some {converted : Converted}
    (h : rewrite? settings field operator arguments = some converted) :
    (operator = .equal ∨ operator = .notEqual) ∧ ∃ negated argument, arguments = [argument] ∧
      rewriteEquality? settings field negated argument = some converted := by
  unfold rewrite? at h
  split at h
  next argument => exact ⟨.inl rfl, false, argument, rfl, h⟩
  next argument => exact ⟨.inr rfl, true, argument, rfl, h⟩
  next => cases h

theorem isRewritable_of_rewrite?_eq_some {comparison : Comparison} {converted : Converted}
    (hfield : field ∈ registry.fields) (hname : field.name = comparison.selector)
    (hsymbol : (comparison.symbol, operator) ∈ Operator.symbols)
    (h : rewrite? settings field operator comparison.arguments = some converted) :
    comparison.IsRewritable registry := by
  rcases exists_of_rewrite?_eq_some h with ⟨hoperator, negated, argument, harguments, hrewrite⟩
  refine ⟨eq_of_mem_symbols hsymbol hoperator, argument, harguments, ?_⟩
  cases exists_of_rewriteEquality?_eq_some hrewrite with
  | inl hnull => exact .inl hnull
  | inr hwildcard => exact .inr ⟨hwildcard.1, field, hfield, hname, hwildcard.2⟩

theorem rewrite?_eq_none {comparison : Comparison} (h : ¬comparison.IsRewritable registry)
    (hfield : field ∈ registry.fields) (hname : field.name = comparison.selector)
    (hsymbol : (comparison.symbol, operator) ∈ Operator.symbols) (settings : Settings) :
    rewrite? settings field operator comparison.arguments = none := by
  rw [Option.eq_none_iff_forall_ne_some]
  intro converted hrewrite
  exact h (isRewritable_of_rewrite?_eq_some hfield hname hsymbol hrewrite)

theorem convert_congr
    (h : rewrite? settings field operator arguments = rewrite? settings' field operator arguments) :
    convert settings field operator arguments = convert settings' field operator arguments := by
  unfold convert
  rw [h]

theorem Comparison.toLeaf_congr {comparison : Comparison} (h : ¬comparison.IsRewritable registry)
    (settings settings' : Settings) :
    comparison.toLeaf settings registry = comparison.toLeaf settings' registry := by
  unfold toLeaf
  -- The field and the operator are found in either settings, or the failure to find them is the same.
  cases hlookup : registry.lookup comparison.selector with
  | error e => rfl
  | ok field =>
    rcases Registry.lookup_eq_ok_iff.mp hlookup with ⟨hfield, hname⟩
    cases hsymbol : Operator.ofSymbol comparison.symbol with
    | error e => rfl
    | ok operator =>
      rw [Operator.ofSymbol_eq_ok_iff] at hsymbol
      have hconvert : convert settings field operator comparison.arguments =
          convert settings' field operator comparison.arguments := by
        apply convert_congr
        rw [rewrite?_eq_none h hfield hname hsymbol, rewrite?_eq_none h hfield hname hsymbol]
      simp only [bind, Except.bind, hconvert]

section Literal

theorem rewrite?_literal (field : Field R) (operator : Operator) (arguments : List String) :
    rewrite? .literal field operator arguments = none := by
  unfold rewrite?
  split <;> rfl

/--
What it means that a leaf says what a comparison says: it has the field of the selector and the operator of the symbol, and
for operands the values that the arguments stand for, one each. A null check has none.
-/
structure Comparison.IsSaidBy (registry : Registry R) (comparison : Comparison) (leaf : Leaf R) : Prop where
  field : registry.lookup comparison.selector = .ok leaf.field
  operator : Operator.ofSymbol comparison.symbol = .ok leaf.operator
  operands : if leaf.operator.isNullCheck then leaf.operands = []
    else List.Forall₂ (fun raw operand => leaf.field.readText? raw = some operand) comparison.arguments
      leaf.operands

theorem convert_literal_eq_ok {converted : Converted}
    (h : convert .literal field operator arguments = .ok converted) :
    converted.operator = operator ∧
      if operator.isNullCheck then converted.operands = []
      else List.Forall₂ (fun raw operand => field.readText? raw = some operand) arguments
        converted.operands := by
  cases hnull : operator.isNullCheck with
  | true =>
    rw [convert_of_isNullCheck hnull] at h
    cases h
    exact ⟨rfl, rfl⟩
  | false =>
    rw [convert_of_rewrite?_eq_none hnull (rewrite?_literal field operator arguments)] at h
    simp only [Except.bind_eq_ok_iff, Except.pure_eq_ok_iff, Except.mapM_eq_ok_iff,
      convertArgument_eq_ok_iff] at h
    rcases h with ⟨_, _, operands, hoperands, rfl⟩
    exact ⟨rfl, hoperands⟩

theorem Comparison.isSaidBy_of_toLeaf_literal {comparison : Comparison} {leaf : Leaf R}
    (h : comparison.toLeaf .literal registry = .ok leaf) : comparison.IsSaidBy registry leaf := by
  unfold toLeaf at h
  simp only [Except.bind_eq_ok_iff] at h
  rcases h with ⟨field, hfield, operator, hoperator, converted, hconvert, hmake⟩
  rcases Leaf.make_eq_ok_iff.mp hmake with ⟨rfl, _⟩
  rcases convert_literal_eq_ok hconvert with ⟨rfl, hoperands⟩
  exact ⟨hfield, hoperator, hoperands⟩

end Literal

end Filter

namespace Condition

open Criteria.Filter

variable {R : Type} {registry : Registry R} {text : String}

theorem ofFilter_congr {settings settings' : Settings}
    (h : ∀ expression, parse (prepare text) = .ok expression →
      ofExpression settings registry expression = ofExpression settings' registry expression) :
    ofFilter settings registry text = ofFilter settings' registry text := by
  unfold ofFilter
  dsimp only
  cases hparse : parse (prepare text) with
  | error e => rfl
  | ok expression =>
    dsimp only [Except.mapError, bind, Except.bind]
    rw [h expression hparse]

/--
The settings matter to a filter text only if an equality in it has the word `null` for its single argument, or one with a
wildcard for a field of texts. Any other text stands for the same condition, or fails with the same error, in all settings.
Where the settings are off, every comparison becomes a leaf that says what it says.
-/
theorem ofFilter_eq_and_isSaidBy (registry : Registry R) (text : String) :
    ((∀ expression : Expression, parse (prepare text) = .ok expression →
        ∀ comparison ∈ expression.atoms, ¬comparison.IsRewritable registry) →
      ∀ settings settings', ofFilter settings registry text = ofFilter settings' registry text) ∧
    ∀ condition, ofFilter .literal registry text = .ok condition →
      (prepare text).toList.all Text.isBlank ∧ condition = unrestricted ∨
        ∃ (expression : Expression) (leafOf : Comparison → Leaf R),
          parse (prepare text) = .ok expression ∧ condition = expression.map leafOf ∧
            ∀ comparison ∈ expression.atoms, comparison.IsSaidBy registry (leafOf comparison) := by
  constructor
  · intro h settings settings'
    apply ofFilter_congr
    intro expression hparse
    apply Formula.traverse_congr
    intro comparison hcomparison
    exact Comparison.toLeaf_congr (h expression hparse comparison hcomparison) settings settings'
  · intro condition hcondition
    rcases unrestricted_or_ofExpression_of_ofFilter_eq_ok hcondition with hblank | ⟨expression, hparse, h⟩
    · exact .inl hblank
    · rcases Formula.traverse_eq_ok_iff.mp h with ⟨leafOf, hleaves, hmap⟩
      refine .inr ⟨expression, leafOf, hparse, hmap, ?_⟩
      intro comparison hcomparison
      exact Comparison.isSaidBy_of_toLeaf_literal (hleaves comparison hcomparison)

theorem ofFilter_eq_and_isSaidBy_cell :
    let registry : Registry (Option Value) := ⟨[.cell], by simp⟩
    let condition : Condition (Option Value) := .atom ⟨.cell, .equal, [.string "D*"]⟩
    ((∀ expression : Expression, parse (prepare "cell=in=(null,D*);cell=isnull=") = .ok expression →
        ∀ comparison ∈ expression.atoms, ¬comparison.IsRewritable registry) ∧
      ∀ settings settings', ofFilter settings registry "cell=in=(null,D*);cell=isnull=" =
        ofFilter settings' registry "cell=in=(null,D*);cell=isnull=") ∧
    ofFilter .literal registry "cell==D*" = .ok condition ∧
      ((prepare "cell==D*").toList.all Text.isBlank ∧ condition = unrestricted ∨
        ∃ (expression : Expression) (leafOf : Comparison → Leaf (Option Value)),
          parse (prepare "cell==D*") = .ok expression ∧ condition = expression.map leafOf ∧
            ∀ comparison ∈ expression.atoms, comparison.IsSaidBy registry (leafOf comparison)) := by
  intro registry condition
  have hparse : parse (prepare "cell=in=(null,D*);cell=isnull=") =
      .ok (.group .and [.atom ⟨"cell", "=in=", ["null", "D*"]⟩, .atom ⟨"cell", "=isnull=", ["null"]⟩]) := by
    decide +kernel
  have hnot : ∀ expression : Expression, parse (prepare "cell=in=(null,D*);cell=isnull=") = .ok expression →
      ∀ comparison ∈ expression.atoms, ¬comparison.IsRewritable registry := by
    intro expression hexpression
    rw [hparse] at hexpression
    cases hexpression
    intro comparison hcomparison hrewritable
    have hsymbol := hrewritable.symbol
    simp only [Formula.atoms_group, Formula.atoms_atom, List.flatMap_cons, List.flatMap_nil, List.cons_append,
      List.nil_append, List.mem_cons, List.not_mem_nil, or_false] at hcomparison
    rcases hcomparison with rfl | rfl <;> simp at hsymbol
  have hwritable : Comparison.IsWritable ⟨"cell", "==", ["D*"]⟩ :=
    ⟨by decide, isReserved_eq_false_of_any (by decide), .equal, by decide⟩
  have htext : "cell==D*" = Expression.toText (.atom ⟨"cell", "==", ["D*"]⟩) := by decide
  have hcondition : ofFilter .literal registry "cell==D*" = .ok condition := by
    rw [htext, ofFilter_toText_atom hwritable]
    rfl
  exact ⟨⟨hnot, (ofFilter_eq_and_isSaidBy registry _).1 hnot⟩, hcondition,
    (ofFilter_eq_and_isSaidBy registry _).2 condition hcondition⟩

end Condition

end Criteria
