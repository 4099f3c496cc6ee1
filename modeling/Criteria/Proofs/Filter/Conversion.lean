import Criteria.Filter.Condition
import Criteria.Proofs.Filter.Completion
import Criteria.Proofs.Formula.Traverse
import Criteria.Proofs.Leaf
import Criteria.Proofs.Registry

/-!
This module contains what becomes of the comparisons of a filter text: of one whose selector names a field and whose
symbol is known, and of the others, which are never what is wrong with the text as such.
-/

namespace Criteria

theorem Operator.ofSymbol_of_mem {entry : String × Operator} (h : entry ∈ symbols) :
    ofSymbol entry.1 = .ok entry.2 := by
  have hall : ∀ entry ∈ symbols, ofSymbol entry.1 = .ok entry.2 := by decide
  exact hall _ h

theorem Operator.ofSymbol_eq_ok_iff {symbol : String} {operator : Operator} :
    ofSymbol symbol = .ok operator ↔ (symbol, operator) ∈ symbols := by
  constructor
  · intro h
    unfold ofSymbol at h
    split at h
    next entry hfind =>
      cases h
      have hsymbol := List.find?_some hfind
      rw [decide_eq_true_eq] at hsymbol
      rw [← hsymbol]
      exact List.mem_of_find?_eq_some hfind
    next => cases h
  · exact ofSymbol_of_mem

theorem Operator.ofSymbol_eq_error_iff {symbol : String} {e : Error} :
    ofSymbol symbol = .error e ↔
      (∀ operator, (symbol, operator) ∉ symbols) ∧ e = .unsupportedOperator symbol := by
  simp only [← ofSymbol_eq_ok_iff]
  unfold ofSymbol
  split
  next => simp
  next => simpa using eq_comm

theorem Filter.isSymbol_of_mem {entry : String × Operator} (h : entry ∈ Operator.symbols) :
    IsSymbol entry.1 := by
  have hall : ∀ entry ∈ Operator.symbols, entry.1 = "==" ∨ entry.1 = "!=" ∨
      entry.1.toList.tail.dropLast ≠ [] ∧ entry.1.toList.tail.dropLast.all Char.isAlpha ∧
        entry.1 = "=" ++ String.ofList entry.1.toList.tail.dropLast ++ "=" := by
    decide
  rcases hall _ h with hsymbol | hsymbol | ⟨hne, hletters, hsymbol⟩
  · rw [hsymbol]
    exact .equal
  · rw [hsymbol]
    exact .notEqual
  · rw [hsymbol]
    exact .named hne (List.all_eq_true.mp hletters)

variable {R : Type} {settings : Settings} {registry : Registry R} {field : Field R} {operator : Operator}
  {e : SyntaxError}

theorem Filter.convert_of_isNullCheck (h : operator.isNullCheck) (arguments : List String) :
    convert settings field operator arguments = .ok ⟨operator, []⟩ := by
  unfold convert
  rw [h]
  rfl

theorem Filter.convert_of_rewrite?_eq_some {arguments : List String} {converted : Converted}
    (hnull : operator.isNullCheck = false)
    (hrewrite : rewrite? settings field operator arguments = some converted) :
    convert settings field operator arguments = .ok converted := by
  unfold convert
  rw [hnull, hrewrite]
  rfl

theorem Filter.convert_of_rewrite?_eq_none {arguments : List String}
    (hnull : operator.isNullCheck = false)
    (hrewrite : rewrite? settings field operator arguments = none) :
    convert settings field operator arguments = (do
      Leaf.checkOperator field operator arguments.length
      return ⟨operator, ← arguments.mapM (convertArgument field)⟩) := by
  unfold convert
  rw [hnull, hrewrite]
  rfl

theorem Filter.convertArgument_eq_ok_iff {raw : String} {value : Value} :
    convertArgument field raw = .ok value ↔ field.readText? raw = some value := by
  unfold convertArgument
  cases field.readText? raw <;> simp

theorem Filter.convertArgument_eq_error_iff {raw : String} {e : Error} :
    convertArgument field raw = .error e ↔
      field.readText? raw = none ∧ e = .unconvertible field.name raw field.type := by
  unfold convertArgument
  cases field.readText? raw with
  | none => simpa using eq_comm
  | some value => simp

theorem Filter.mapM_convertArgument_eq_error_iff {arguments : List String} {e : Error} :
    arguments.mapM (convertArgument field) = .error e ↔
      ∃ argument, (arguments.find? fun raw => (field.readText? raw).isNone) = some argument ∧
        e = .unconvertible field.name argument field.type := by
  simp only [Except.mapM_eq_error_iff, convertArgument_eq_ok_iff, convertArgument_eq_error_iff,
    List.find?_eq_some_iff_append, Option.isNone_iff_eq_none, Bool.not_eq_true', Option.isNone_eq_false_iff,
    ← Option.isSome_iff_exists]
  constructor
  · intro h
    rcases h with ⟨before, argument, after, harguments, hbefore, hargument, he⟩
    exact ⟨argument, ⟨hargument, before, after, harguments, hbefore⟩, he⟩
  · intro h
    rcases h with ⟨argument, ⟨hargument, before, after, harguments, hbefore⟩, he⟩
    exact ⟨before, argument, after, harguments, hbefore, hargument, he⟩

theorem Filter.convert_eq_error_iff {arguments : List String} {e : Error} :
    convert settings field operator arguments = .error e ↔
      operator.isNullCheck = false ∧ rewrite? settings field operator arguments = none ∧
        (Leaf.checkOperator field operator arguments.length = .error e ∨
          Leaf.checkOperator field operator arguments.length = .ok () ∧
            ∃ argument, (arguments.find? fun raw => (field.readText? raw).isNone) = some argument ∧
              e = .unconvertible field.name argument field.type) := by
  cases hnull : operator.isNullCheck with
  | true => simp [convert_of_isNullCheck hnull]
  | false =>
    cases hrewrite : rewrite? settings field operator arguments with
    | some converted => simp [convert_of_rewrite?_eq_some hnull hrewrite]
    | none =>
      rw [convert_of_rewrite?_eq_none hnull hrewrite, Except.bind_eq_error_iff]
      simp only [Except.bind_eq_error_iff, mapM_convertArgument_eq_error_iff, true_and]
      simp [pure, Except.pure, Unique.exists_iff]

theorem Filter.Comparison.toLeaf_of_mem {symbol : String} {arguments : List String}
    (hfield : field ∈ registry.fields) (hsymbol : (symbol, operator) ∈ Operator.symbols) :
    Comparison.toLeaf settings registry ⟨field.name, symbol, arguments⟩ = (do
      let converted ← convert settings field operator arguments
      Leaf.make field converted.operator converted.operands) := by
  unfold toLeaf
  rw [Registry.lookup_of_mem hfield, Operator.ofSymbol_of_mem hsymbol]
  rfl

theorem Condition.ofFilter_toText_atom {comparison : Filter.Comparison} (h : comparison.IsWritable) :
    ofFilter settings registry (Filter.Expression.toText (.atom comparison)) =
      (comparison.toLeaf settings registry).map .atom := by
  rw [Filter.ofFilter_toText]
  · unfold ofExpression
    rw [Formula.traverse_atom]
    rfl
  · simpa using h
  · exact .atom

namespace Filter.Comparison

/--
What a comparison fails with: that its selector names no field, else that its symbol stands for no operator, else what is
wrong with its arguments, else what is wrong with the leaf.
-/
inductive Fails (settings : Settings) (registry : Registry R) (comparison : Comparison) : Error → Prop where
  | selector : registry.contains comparison.selector = false →
      Fails settings registry comparison (.unknownField comparison.selector)
  | symbol {field : Field R} : field ∈ registry.fields → field.name = comparison.selector →
      (∀ operator, (comparison.symbol, operator) ∉ Operator.symbols) →
      Fails settings registry comparison (.unsupportedOperator comparison.symbol)
  | arguments {field : Field R} {operator : Operator} {e : Error} : field ∈ registry.fields →
      field.name = comparison.selector → (comparison.symbol, operator) ∈ Operator.symbols →
      convert settings field operator comparison.arguments = .error e →
      Fails settings registry comparison e
  | leaf {field : Field R} {operator : Operator} {converted : Converted} {e : Error} :
      field ∈ registry.fields → field.name = comparison.selector →
      (comparison.symbol, operator) ∈ Operator.symbols →
      convert settings field operator comparison.arguments = .ok converted →
      Leaf.make field converted.operator converted.operands = .error e →
      Fails settings registry comparison e

theorem toLeaf_eq_ok_iff {comparison : Comparison} {leaf : Leaf R} :
    comparison.toLeaf settings registry = .ok leaf ↔
      ∃ field ∈ registry.fields, field.name = comparison.selector ∧
        ∃ operator, (comparison.symbol, operator) ∈ Operator.symbols ∧
          ∃ converted, convert settings field operator comparison.arguments = .ok converted ∧
            Leaf.make field converted.operator converted.operands = .ok leaf := by
  unfold toLeaf
  simp only [Except.bind_eq_ok_iff, Registry.lookup_eq_ok_iff, Operator.ofSymbol_eq_ok_iff, and_assoc]

theorem toLeaf_eq_error_iff {comparison : Comparison} {e : Error} :
    comparison.toLeaf settings registry = .error e ↔ comparison.Fails settings registry e := by
  unfold toLeaf
  simp only [Except.bind_eq_error_iff, Registry.lookup_eq_ok_iff, Registry.lookup_eq_error_iff,
    Operator.ofSymbol_eq_ok_iff, Operator.ofSymbol_eq_error_iff]
  constructor
  · intro h
    rcases h with ⟨hselector, rfl⟩ | ⟨field, ⟨hfield, hname⟩, h⟩
    · exact .selector hselector
    rcases h with ⟨hsymbol, rfl⟩ | ⟨operator, hsymbol, h⟩
    · exact .symbol hfield hname hsymbol
    rcases h with hconvert | ⟨converted, hconvert, hmake⟩
    · exact .arguments hfield hname hsymbol hconvert
    · exact .leaf hfield hname hsymbol hconvert hmake
  · intro h
    cases h with
    | selector hselector => exact .inl ⟨hselector, rfl⟩
    | symbol hfield hname hsymbol => exact .inr ⟨_, ⟨hfield, hname⟩, .inl ⟨hsymbol, rfl⟩⟩
    | arguments hfield hname hsymbol hconvert =>
      exact .inr ⟨_, ⟨hfield, hname⟩, .inr ⟨_, hsymbol, .inl hconvert⟩⟩
    | leaf hfield hname hsymbol hconvert hmake =>
      exact .inr ⟨_, ⟨hfield, hname⟩, .inr ⟨_, hsymbol, .inr ⟨_, hconvert, hmake⟩⟩⟩

end Filter.Comparison

section Malformed

theorem Leaf.checkOperator_ne_malformedFilter {count : Nat} :
    checkOperator field operator count ≠ .error (.malformedFilter e) := by
  simp [checkOperator_eq_error_iff]

theorem Leaf.make_ne_malformedFilter {operands : List Value} :
    make field operator operands ≠ .error (.malformedFilter e) := by
  intro h
  unfold make at h
  rcases Except.bind_eq_error_iff.mp h with h | ⟨_, _, h⟩
  · exact checkOperator_ne_malformedFilter h
  · have hoperands := Except.eq_error_of_bind_eq_error h fun _ => ⟨_, rfl⟩
    rcases Except.forM_eq_error_iff.mp hoperands with ⟨before, operand, after, _, _, h⟩
    unfold Field.checkOperand at h
    split at h <;> simp at h

theorem Filter.convert_ne_malformedFilter {arguments : List String} :
    convert settings field operator arguments ≠ .error (.malformedFilter e) := by
  simp [convert_eq_error_iff, Leaf.checkOperator_ne_malformedFilter]

theorem Filter.Comparison.toLeaf_ne_malformedFilter {comparison : Comparison} :
    comparison.toLeaf settings registry ≠ .error (.malformedFilter e) := by
  intro h
  cases toLeaf_eq_error_iff.mp h with
  | arguments _ _ _ hconvert => exact convert_ne_malformedFilter hconvert
  | leaf _ _ _ _ hmake => exact Leaf.make_ne_malformedFilter hmake

theorem Condition.ofFilter_eq_malformedFilter_iff {text : String} :
    ofFilter settings registry text = .error (.malformedFilter e) ↔
      (Filter.prepare text).toList.all Text.isBlank = false ∧
        Filter.parse (Filter.prepare text) = .error e := by
  unfold ofFilter
  dsimp only
  constructor
  · intro h
    split at h
    next => cases h
    next hblank =>
      refine ⟨Bool.not_eq_true _ ▸ hblank, ?_⟩
      rcases Except.bind_eq_error_iff.mp h with h | ⟨expression, _, h⟩
      · rcases Except.mapError_eq_error_iff.mp h with ⟨cause, hparse, hcause⟩
        cases hcause
        exact hparse
      · rcases Formula.exists_of_traverse_eq_error h with ⟨comparison, _, h⟩
        exact absurd h Filter.Comparison.toLeaf_ne_malformedFilter
  · intro h
    rcases h with ⟨hblank, hparse⟩
    rw [hblank, hparse]
    rfl

end Malformed

end Criteria
