import Criteria.Filter.Expression

/-!
This module contains the grammar of filter expressions. Its relations hold between a text, what the front of
the text says, and the rest of the text. The grammar does not say how to find out what a text says.
-/

namespace Criteria.Filter.Grammar

inductive Blanks : List Char → List Char → Prop where
  | nil {s : List Char} : Blanks s s
  | cons {c : Char} {s rest : List Char} : Text.isBlank c → Blanks s rest → Blanks (c :: s) rest

inductive Many (p : Char → Bool) : List Char → List Char → List Char → Prop where
  | one {c : Char} {rest : List Char} : p c → Many p (c :: rest) [c] rest
  | cons {c : Char} {s content rest : List Char} :
      p c → Many p s content rest → Many p (c :: s) (c :: content) rest

abbrev Word : List Char → List Char → List Char → Prop :=
  Many fun c => !isReserved c

inductive Symbol : List Char → String → List Char → Prop where
  | equal {rest : List Char} : Symbol ('=' :: '=' :: rest) "==" rest
  | notEqual {rest : List Char} : Symbol ('!' :: '=' :: rest) "!=" rest
  | named {s name rest : List Char} : Many Char.isAlpha s name ('=' :: rest) →
      Symbol ('=' :: s) ("=" ++ String.ofList name ++ "=") rest

inductive Quoted (quote : Char) : List Char → List Char → List Char → Prop where
  | close {rest : List Char} : Quoted quote (quote :: rest) [] rest
  | escaped {c : Char} {s content rest : List Char} :
      Quoted quote s content rest → Quoted quote ('\\' :: c :: s) (c :: content) rest
  | plain {c : Char} {s content rest : List Char} : c ≠ quote → c ≠ '\\' →
      Quoted quote s content rest → Quoted quote (c :: s) (c :: content) rest

inductive Argument : List Char → String → List Char → Prop where
  | bare {s content rest : List Char} :
      Word s content rest → Argument s (String.ofList content) rest
  | quoted {quote : Char} {s content rest : List Char} : isQuote quote →
      Quoted quote s content rest → Argument (quote :: s) (String.ofList content) rest

inductive ArgumentGroup : List Char → List String → List Char → Prop where
  | one {s s₁ s₂ rest : List Char} {argument : String} : Blanks s s₁ → Argument s₁ argument s₂ →
      Blanks s₂ (')' :: rest) → ArgumentGroup s [argument] rest
  | cons {s s₁ s₂ s₃ rest : List Char} {argument : String} {arguments : List String} :
      Blanks s s₁ → Argument s₁ argument s₂ → Blanks s₂ (',' :: s₃) →
      ArgumentGroup s₃ arguments rest → ArgumentGroup s (argument :: arguments) rest

inductive Arguments : List Char → List String → List Char → Prop where
  | single {s rest : List Char} {argument : String} :
      Argument s argument rest → Arguments s [argument] rest
  | group {s rest : List Char} {arguments : List String} :
      ArgumentGroup s arguments rest → Arguments ('(' :: s) arguments rest

/--
What joins two parts of a chain: a character, or a word between blanks, where an opening parenthesis may take
the place of the second blank.
-/
inductive Separator (connective : Connective) : List Char → List Char → Prop where
  | char {s rest : List Char} :
      Blanks s (separatorChar connective :: rest) → Separator connective s rest
  | word {blank next : Char} {s word rest : List Char} : Text.isBlank blank →
      Blanks s (word ++ next :: rest) → word.map Char.toLower = connective.toText.toList →
      Text.isBlank next ∨ next = '(' → Separator connective (blank :: s) (next :: rest)

mutual

inductive Chain : Connective → List Char → Expression → List Char → Prop where
  | single {connective : Connective} {s rest : List Char} {part : Expression} :
      Part connective s part rest → Chain connective s part rest
  | group {connective : Connective} {s rest : List Char} {first second : Expression}
      {others : List Expression} : Parts connective s (first :: second :: others) rest →
      Chain connective s (.group connective (first :: second :: others)) rest

inductive Parts : Connective → List Char → List Expression → List Char → Prop where
  | one {connective : Connective} {s rest : List Char} {part : Expression} :
      Part connective s part rest → Parts connective s [part] rest
  | cons {connective : Connective} {s s₁ s₂ rest : List Char} {part : Expression}
      {parts : List Expression} : Part connective s part s₁ → Separator connective s₁ s₂ →
      Parts connective s₂ parts rest → Parts connective s (part :: parts) rest

/--
A part of a chain. The parts of a disjunction are conjunctions, and those of a conjunction are comparisons and
disjunctions in parentheses.
-/
inductive Part : Connective → List Char → Expression → List Char → Prop where
  | conjunction {s rest : List Char} {part : Expression} :
      Chain .and s part rest → Part .or s part rest
  | comparison {s s₁ s₂ s₃ rest selector : List Char} {symbol : String}
      {arguments : List String} : Blanks s s₁ → Word s₁ selector s₂ → Symbol s₂ symbol s₃ →
      Arguments s₃ arguments rest →
      Part .and s (.atom ⟨String.ofList selector, symbol, arguments⟩) rest
  | parentheses {s s₁ s₂ rest : List Char} {part : Expression} : Blanks s ('(' :: s₁) →
      Chain .or s₁ part s₂ → Blanks s₂ (')' :: rest) → Part .and s part rest

end

/--
What it means that a text is an expression: it is a disjunction with blanks around it.
-/
def Derives (text : String) (expression : Expression) : Prop :=
  ∃ start rest, Blanks text.toList start ∧ Chain .or start expression rest ∧ Blanks rest []

theorem blanks_dropWhile (s : List Char) : Blanks s (s.dropWhile Text.isBlank) := by
  induction s with
  | nil => exact .nil
  | cons c s ih =>
    rw [List.dropWhile_cons]
    split
    next h => exact .cons h ih
    next => exact .nil

theorem many_takeWhile {p : Char → Bool} {s : List Char} (h : s.takeWhile p ≠ []) :
    Many p s (s.takeWhile p) (s.dropWhile p) := by
  induction s with
  | nil => exact absurd rfl h
  | cons c s ih =>
    by_cases hc : p c
    · rw [List.takeWhile_cons_of_pos hc, List.dropWhile_cons_of_pos hc]
      cases s with
      | nil => exact .one hc
      | cons d s =>
        by_cases hd : p d
        · exact .cons hc (ih (by rw [List.takeWhile_cons_of_pos hd]; exact List.cons_ne_nil _ _))
        · rw [List.takeWhile_cons_of_neg hd, List.dropWhile_cons_of_neg hd]
          exact .one hc
    · rw [List.takeWhile_cons_of_neg hc] at h
      exact absurd rfl h

end Criteria.Filter.Grammar
