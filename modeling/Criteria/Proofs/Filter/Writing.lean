import Criteria.Filter.Printer
import Criteria.Proofs.Filter.Token

/-!
This module contains the proof that what is written for a comparison says this comparison, whatever comes after it.
-/

namespace Criteria.Filter

open Grammar

inductive IsSymbol : String → Prop where
  | equal : IsSymbol "=="
  | notEqual : IsSymbol "!="
  | named {name : List Char} : name ≠ [] → (∀ c ∈ name, c.isAlpha) →
      IsSymbol ("=" ++ String.ofList name ++ "=")

/--
Whether a comparison can be written such that it can be read: its selector is a word, it has an operator and
it has arguments, which may be any texts.
-/
structure Comparison.IsWritable (comparison : Comparison) : Prop where
  selector_ne_nil : comparison.selector.toList ≠ []
  selector_word : ∀ c ∈ comparison.selector.toList, isReserved c = false
  symbol : IsSymbol comparison.symbol
  arguments : comparison.arguments ≠ []

theorem isReserved_eq_false_of_any {s : List Char} (h : s.any isReserved = false) :
    ∀ c ∈ s, isReserved c = false := by
  intro c hc
  rw [← Bool.not_eq_true]
  exact List.any_eq_false.mp h c hc

theorem word_append {content : List Char} (hne : content ≠ [])
    (hword : ∀ c ∈ content, isReserved c = false) (rest : List Char) :
    Word (content ++ rest) content rest := by
  apply many_iff.mpr
  refine ⟨hne, rfl, ?_⟩
  intro c hc
  rw [hword c hc]
  rfl

theorem quoted_escape (content rest : List Char) :
    Quoted '\'' ((content.flatMap fun c => if c = '\'' || c = '\\' then ['\\', c] else [c]) ++
      '\'' :: rest) content rest := by
  induction content with
  | nil => exact .close
  | cons c content ih =>
    rw [List.flatMap_cons]
    split
    next => exact .escaped ih
    next hplain =>
      rw [Bool.or_eq_true, decide_eq_true_iff, decide_eq_true_iff, not_or] at hplain
      exact .plain hplain.1 hplain.2 ih

theorem argument_writeArgument (value : String) (rest : List Char) :
    Argument (writeArgument value ++ rest) value rest := by
  have hvalue : String.ofList value.toList = value := String.ofList_toList
  unfold writeArgument
  dsimp only
  split
  next hword =>
    rw [Bool.and_eq_true, Bool.not_eq_true', Bool.not_eq_true', List.isEmpty_eq_false_iff] at hword
    have hargument : Argument (value.toList ++ rest) (String.ofList value.toList) rest := by
      apply Argument.bare
      exact word_append hword.1 (isReserved_eq_false_of_any hword.2) rest
    rw [hvalue] at hargument
    exact hargument
  next =>
    have hquoted := Argument.quoted (by decide) (quoted_escape value.toList rest)
    rw [hvalue] at hquoted
    rw [List.append_assoc]
    exact hquoted

theorem argumentGroup_intercalate {values : List String} (h : values ≠ []) (rest : List Char) :
    ArgumentGroup (List.intercalate [','] (values.map writeArgument) ++ ')' :: rest) values
      rest := by
  induction values with
  | nil => exact absurd rfl h
  | cons value values ih =>
    cases values with
    | nil =>
      rw [List.map_singleton, List.intercalate_singleton]
      exact .one .nil (argument_writeArgument value _) .nil
    | cons second values =>
      have hothers := ih (List.cons_ne_nil _ _)
      rw [List.map_cons] at hothers ⊢
      rw [List.map_cons, List.intercalate_cons_cons, List.append_assoc, List.append_assoc]
      exact .cons .nil (argument_writeArgument value _) .nil hothers

theorem arguments_writeArguments {values : List String} (h : values ≠ []) (rest : List Char) :
    Arguments (writeArguments values ++ rest) values rest := by
  unfold writeArguments
  split
  next value => exact .single (argument_writeArgument value rest)
  next =>
    rw [List.cons_append, List.cons_append, List.append_assoc]
    exact .group (argumentGroup_intercalate h rest)

theorem symbol_append {value : String} (h : IsSymbol value) (rest : List Char) :
    Symbol (value.toList ++ rest) value rest := by
  cases h with
  | equal => exact .equal
  | notEqual => exact .notEqual
  | @named name hne hletters =>
    rw [String.toList_append, String.toList_append, String.toList_ofList]
    have hname : Many Char.isAlpha (name ++ '=' :: rest) name ('=' :: rest) := by
      rw [many_iff]
      exact ⟨hne, rfl, hletters⟩
    have hsymbol := Symbol.named hname
    simpa using hsymbol

theorem part_write {comparison : Comparison} (h : comparison.IsWritable) (rest : List Char) :
    Part .and (comparison.write ++ rest) (.atom comparison) rest := by
  have hselector : String.ofList comparison.selector.toList = comparison.selector :=
    String.ofList_toList
  unfold Comparison.write
  rw [List.append_assoc, List.append_assoc]
  have hpart := Part.comparison .nil (word_append h.selector_ne_nil h.selector_word _)
    (symbol_append h.symbol _) (arguments_writeArguments h.arguments rest)
  rw [hselector] at hpart
  exact hpart

end Criteria.Filter
