import Criteria.Error
import Criteria.Filter.Expression
import Criteria.Text.Parsed

/-!
This module contains the reading of filter expressions. A disjunction is a chain of conjunctions, a
conjunction is a chain of constraints, and a constraint is a comparison or a disjunction in parentheses. The
parts of a chain are joined by a character, or by a word with blanks before it. What the functions
of this module have not yet read is a list of characters that becomes shorter with every step.
-/

namespace Criteria.Filter

open Text (Parsed Shorter)

structure Failure where
  complaint : Complaint
  rest : List Char

def skipBlanks (s : List Char) : List Char :=
  s.dropWhile Text.isBlank

theorem length_skipBlanks_le (s : List Char) : (skipBlanks s).length ≤ s.length :=
  (List.dropWhile_sublist _).length_le

def word (complaint : Complaint) (s : List Char) : Except Failure (Parsed String s) :=
  let isWordChar (c : Char) : Bool := !isReserved c
  match h : s.takeWhile isWordChar with
  | c :: cs =>
    .ok ⟨String.ofList (c :: cs), s.dropWhile isWordChar, by
      have := congrArg List.length (List.takeWhile_append_dropWhile (p := isWordChar) (l := s))
      rw [h, List.length_append, List.length_cons] at this
      omega⟩
  | [] => .error ⟨complaint, s⟩

def symbol (s : List Char) : Except Failure (Parsed String s) :=
  match s with
  | '=' :: '=' :: rest => .ok ⟨"==", rest, by simp only [List.length_cons]; omega⟩
  | '!' :: '=' :: rest => .ok ⟨"!=", rest, by simp only [List.length_cons]; omega⟩
  | '=' :: named =>
    match hn : named.takeWhile Char.isAlpha, hr : named.dropWhile Char.isAlpha with
    | c :: cs, '=' :: rest =>
      .ok ⟨"=" ++ String.ofList (c :: cs) ++ "=", rest, by
        have := (List.dropWhile_sublist (l := named) Char.isAlpha).length_le
        rw [hr] at this
        simp only [List.length_cons] at this ⊢
        omega⟩
    | _, _ => .error ⟨.operator, '=' :: named⟩
  | s => .error ⟨.operator, s⟩

def argument (s : List Char) : Except Failure (Parsed String s) :=
  match s with
  | [] => word .argument []
  | c :: quoted =>
    if isQuote c then
      match h : unquote? c quoted with
      | some (content, rest) =>
        .ok ⟨String.ofList content, rest, Nat.lt_succ_of_lt (length_lt_of_unquote? h)⟩
      | none => .error ⟨.closingQuote, c :: quoted⟩
    else
      word .argument (c :: quoted)

def argumentsOfGroup (s : List Char) : Except Failure (Parsed (List String) s) := do
  let first ← argument (skipBlanks s)
  have h₁ := first.length_lt
  have h₂ := length_skipBlanks_le s
  have h₃ := length_skipBlanks_le first.rest
  match h : skipBlanks first.rest with
  | ',' :: rest =>
    have : rest.length < s.length := by rw [h, List.length_cons] at h₃; omega
    let others ← argumentsOfGroup rest
    have := others.length_lt
    return ⟨first.value :: others.value, others.rest, by omega⟩
  | ')' :: rest => return ⟨[first.value], rest, by rw [h, List.length_cons] at h₃; omega⟩
  | rest => throw ⟨.argumentSeparator, rest⟩
termination_by s.length

def arguments (s : List Char) : Except Failure (Parsed (List String) s) :=
  match s with
  | '(' :: group => do
    let inside := skipBlanks group
    if inside.head? = some ')' then
      throw ⟨.emptyArgumentGroup, inside⟩
    let all ← argumentsOfGroup inside
    have h₁ := all.length_lt
    have h₂ : inside.length ≤ group.length := length_skipBlanks_le group
    return ⟨all.value, all.rest, by simp only [List.length_cons]; omega⟩
  | s => do
    let single ← argument s
    return ⟨[single.value], single.rest, single.length_lt⟩

def comparison (s : List Char) : Except Failure (Parsed Comparison s) := do
  let selector ← word .selector s
  let symbol ← symbol selector.rest
  let arguments ← arguments symbol.rest
  have := selector.length_lt
  have := symbol.length_lt
  have := arguments.length_lt
  return ⟨⟨selector.value, symbol.value, arguments.value⟩, arguments.rest, by omega⟩

/--
What follows a word that joins the parts of a chain. Case does not matter. A blank or an opening parenthesis
must come next, and it is left there.
-/
def afterKeyword? (keyword : List Char) (s : List Char) : Option (List Char) :=
  let rest := s.drop keyword.length
  if (s.take keyword.length).map Char.toLower = keyword &&
      rest.head?.any fun c => Text.isBlank c || c = '(' then
    some rest
  else
    none

def separator? (connective : Connective) (s : List Char) : Option (Shorter s) :=
  have hs := length_skipBlanks_le s
  match h : skipBlanks s with
  | [] => none
  | c :: rest =>
    if c = separatorChar connective then
      some ⟨rest, by rw [h, List.length_cons] at hs; omega⟩
    else if hlt : (c :: rest).length < s.length then
      match hk : afterKeyword? connective.toText.toList (c :: rest) with
      | none => none
      | some after =>
        some ⟨after, by
          unfold afterKeyword? at hk
          dsimp only at hk
          split at hk
          · cases hk
            exact Nat.lt_of_le_of_lt (List.drop_sublist _ _).length_le hlt
          · cases hk⟩
    else
      none

def ofChain (connective : Connective) : List Expression → Expression
  | [part] => part
  | parts => .group connective parts

structure Parts (s : List Char) where
  value : List Expression
  rest : List Char
  length_le : rest.length ≤ s.length

/--
How tightly the parts of a chain hold together. A chain is made of chains of a lower level.
-/
def level : Connective → Nat
  | .and => 1
  | .or => 2

theorem level_le (connective : Connective) : level connective ≤ 2 := by
  cases connective <;> decide

mutual

def chain (connective : Connective) (s : List Char) : Except Failure (Parsed Expression s) := do
  let first ← part connective s
  have := first.length_lt
  let others ← furtherParts connective first.rest
  have := others.length_le
  return ⟨ofChain connective (first.value :: others.value), others.rest, by omega⟩
termination_by 6 * s.length + (2 * level connective + 1)

def part (connective : Connective) (s : List Char) : Except Failure (Parsed Expression s) :=
  match connective with
  | .or => chain .and s
  | .and => constraint s
termination_by 6 * s.length + 2 * level connective
decreasing_by all_goals simp [level]

def furtherParts (connective : Connective) (s : List Char) : Except Failure (Parts s) :=
  match separator? connective s with
  | none => return ⟨[], s, Nat.le_refl _⟩
  | some ⟨rest, _⟩ => do
    have := level_le connective
    let next ← part connective rest
    have := next.length_lt
    let others ← furtherParts connective next.rest
    have := others.length_le
    return ⟨next.value :: others.value, others.rest, by omega⟩
termination_by 6 * s.length

def constraint (s : List Char) : Except Failure (Parsed Expression s) :=
  have hs := length_skipBlanks_le s
  match h : skipBlanks s with
  | '(' :: inner => do
    have : inner.length < s.length := by rw [h, List.length_cons] at hs; omega
    let inside ← chain .or inner
    have := inside.length_lt
    have hr := length_skipBlanks_le inside.rest
    match hc : skipBlanks inside.rest with
    | ')' :: rest => return ⟨inside.value, rest, by rw [hc, List.length_cons] at hr; omega⟩
    | rest => throw ⟨.closingParenthesis, rest⟩
  | rest => do
    let single ← comparison rest
    have := single.length_lt
    return ⟨.atom single.value, single.rest, by rw [h] at hs; omega⟩
termination_by 6 * s.length
decreasing_by simp only [level]; omega

end

def expression (s : List Char) : Except Failure Expression := do
  let start := skipBlanks s
  if start.isEmpty then
    throw ⟨.emptyExpression, start⟩
  let all ← chain .or start
  match skipBlanks all.rest with
  | [] => return all.value
  | c :: rest => throw ⟨.unexpectedCharacter c, c :: rest⟩

def byteLength (s : List Char) : Nat :=
  (String.ofList s).utf8ByteSize

/--
Read a filter expression. The position of an error is the number of bytes before the rest of the text from
where the complaint applies.
-/
def parse (text : String) : Except SyntaxError Expression :=
  (expression text.toList).mapError fun failure =>
    ⟨failure.complaint, byteLength text.toList - byteLength failure.rest⟩

end Criteria.Filter
