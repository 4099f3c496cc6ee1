import Criteria.Pattern.Regex

/-!
This module contains the reading of regular expressions from their source text, and what it means that one
is found in a text. What is read is as general as the notation: anchors are terms like any others, an
expression without them is found anywhere in a text, and a dot takes line breaks only under its flag.
-/

namespace Criteria.Regex

inductive Single where
  | char (c : Char)
  | dot
  deriving DecidableEq

inductive Term where
  | start
  | finish
  | one (single : Single)
  | many (single : Single)
  deriving DecidableEq

structure Expression where
  dotAll : Bool
  terms : List Term
  deriving DecidableEq

def repeatLast? : List Term → Option (List Term)
  | .one single :: read => some (.many single :: read)
  | _ => none

def readSymbol? (c : Char) (read : List Term) : Option (List Term) :=
  if c = '^' then some (.start :: read)
  else if c = '$' then some (.finish :: read)
  else if c = '.' then some (.one .dot :: read)
  else if c = '*' then repeatLast? read
  else if isSpecial c then none
  else some (.one (.char c) :: read)

/--
Read the terms of a source text, given those that precede it, last term first. A special character stands for
itself only behind a backslash.
-/
def readTerms? (read : List Term) : List Char → Option (List Term)
  | [] => some read.reverse
  | '\\' :: c :: s => if isSpecial c then readTerms? (.one (.char c) :: read) s else none
  | c :: s =>
    match readSymbol? c read with
    | some read => readTerms? read s
    | none => none

def read? (source : String) : Option Expression :=
  match source.toList with
  | '(' :: '?' :: 's' :: ')' :: s => (readTerms? [] s).map (Expression.mk true)
  | s => (readTerms? [] s).map (Expression.mk false)

def Single.Takes (dotAll : Bool) : Single → Char → Prop
  | char d, c => c = d
  | dot, c => dotAll ∨ c ≠ '\n'

inductive Fits (dotAll : Bool) : List Term → List Char → List Char → Prop where
  | nil {before after : List Char} : Fits dotAll [] before after
  | start {terms : List Term} {after : List Char} :
      Fits dotAll terms [] after → Fits dotAll (.start :: terms) [] after
  | finish {terms : List Term} {before : List Char} :
      Fits dotAll terms before [] → Fits dotAll (.finish :: terms) before []
  | one {single : Single} {terms : List Term} {before after : List Char} (c : Char) :
      single.Takes dotAll c → Fits dotAll terms (before ++ [c]) after →
        Fits dotAll (.one single :: terms) before (c :: after)
  | many {single : Single} {terms : List Term} {before after : List Char} (run : List Char) :
      (∀ c ∈ run, single.Takes dotAll c) → Fits dotAll terms (before ++ run) after →
        Fits dotAll (.many single :: terms) before (run ++ after)

def Expression.Found (expression : Expression) (text : List Char) : Prop :=
  ∃ before after, text = before ++ after ∧ Fits expression.dotAll expression.terms before after

inductive Matches : List Item → List Char → Prop where
  | nil : Matches [] []
  | char (c : Char) {items : List Item} {text : List Char} :
      Matches items text → Matches (.char c :: items) (c :: text)
  | any (c : Char) {items : List Item} {text : List Char} :
      Matches items text → Matches (.any :: items) (c :: text)
  | anyMany (run : List Char) {items : List Item} {text : List Char} :
      Matches items text → Matches (.anyMany :: items) (run ++ text)

example : read? "a.*$" = some ⟨false, [.one (.char 'a'), .many .dot, .finish]⟩ := by decide +kernel
example : read? "(?s)^\\." = some ⟨true, [.start, .one (.char '.')]⟩ := by decide +kernel
example : read? "a+" = none := by decide +kernel

end Criteria.Regex
