import Criteria.Sql.Predicate
import Criteria.Text.Parsed

/-!
This module contains the reading of SQL conditions: the way back from a text with placeholders and the operands
for them to the condition. Each placeholder takes the next operand.
-/

namespace Criteria.Sql.Reader

open Text (Parsed Shorter)

def skip? : List Char → List Char → Option (List Char)
  | [], s => some s
  | c :: beginning, d :: s => if c = d then skip? beginning s else none
  | _ :: _, [] => none

theorem length_of_skip? {beginning s rest : List Char} (h : skip? beginning s = some rest) :
    s.length = beginning.length + rest.length := by
  fun_induction skip? beginning s with
  | case1 s => cases h; rw [List.length_nil, Nat.zero_add]
  | case2 c beginning s ih => rw [List.length_cons, List.length_cons, ih h]; omega
  | case3 => cases h
  | case4 => cases h

def identifier? : List Char → Option (List Char × List Char)
  | [] => none
  | ['"'] => some ([], [])
  | '"' :: c :: s =>
    if c = '"' then (identifier? s).map fun (name, rest) => ('"' :: name, rest)
    else some ([], c :: s)
  | c :: s => (identifier? s).map fun (name, rest) => (c :: name, rest)

theorem length_lt_of_identifier? {s name rest : List Char}
    (h : identifier? s = some (name, rest)) : rest.length < s.length := by
  fun_induction identifier? s generalizing name rest <;> grind [Option.map_eq_some_iff]

def placeholders? : List Char → Option (Nat × List Char)
  | '?' :: ')' :: s => some (1, s)
  | '?' :: ',' :: ' ' :: s => (placeholders? s).map fun (count, rest) => (count + 1, rest)
  | _ => none

theorem length_lt_of_placeholders? {s rest : List Char} {count : Nat}
    (h : placeholders? s = some (count, rest)) : rest.length < s.length := by
  fun_induction placeholders? s generalizing count rest <;> grind [Option.map_eq_some_iff]

def relations : List (String × Operator × Nat) :=
  [(" = ?", .equal, 1), (" <> ?", .notEqual, 1), (" > ?", .greaterThan, 1),
    (" >= ?", .greaterThanOrEqual, 1), (" < ?", .lessThan, 1), (" <= ?", .lessThanOrEqual, 1),
    (" LIKE ?", .like, 1), (" NOT LIKE ?", .notLike, 1), (" IS NULL", .isNull, 0),
    (" IS NOT NULL", .notNull, 0), (" BETWEEN ? AND ?", .between, 2)]

def listRelations : List (String × Operator) :=
  [(" IN (", .isIn), (" NOT IN (", .notIn)]

def listRelation? (s : List Char) : Option (Operator × Nat × List Char) :=
  listRelations.findSome? fun (text, operator) =>
    ((skip? text.toList s).bind placeholders?).map fun (count, rest) => (operator, count, rest)

def relation? (s : List Char) : Option (Operator × Nat × List Char) :=
  let fixed := relations.findSome? fun (text, operator, count) =>
    (skip? text.toList s).map fun rest => (operator, count, rest)
  match fixed with
  | some relation => some relation
  | none => listRelation? s

theorem length_le_of_relation? {s rest : List Char} {operator : Operator} {count : Nat}
    (h : relation? s = some (operator, count, rest)) : rest.length ≤ s.length := by
  unfold relation? at h
  dsimp only at h
  split at h
  next hfixed =>
    obtain ⟨entry, _, hentry⟩ := List.exists_of_findSome?_eq_some hfixed
    obtain ⟨after, hafter, heq⟩ := Option.map_eq_some_iff.1 hentry
    cases heq
    cases h
    have := length_of_skip? hafter
    omega
  next =>
    obtain ⟨entry, _, h⟩ := List.exists_of_findSome?_eq_some h
    obtain ⟨⟨n, after⟩, hafter, heq⟩ := Option.map_eq_some_iff.1 h
    cases heq
    obtain ⟨marks, hmarks, hafter⟩ := Option.bind_eq_some_iff.1 hafter
    have h₁ := length_of_skip? hmarks
    have h₂ := length_lt_of_placeholders? hafter
    omega

structure Taken where
  predicate : Predicate
  operands : List Value

structure TakenAll where
  predicates : List Predicate
  operands : List Value

def comparison? (s : List Char) (operands : List Value) : Option (Parsed Taken s) :=
  match hi : identifier? s with
  | none => none
  | some (column, s₁) =>
    match hr : relation? s₁ with
    | none => none
    | some (operator, count, rest) =>
      if count ≤ operands.length then
        some
          { value := ⟨.atom ⟨String.ofList column, operator, operands.take count⟩, operands.drop count⟩
            rest := rest
            length_lt := Nat.lt_of_le_of_lt (length_le_of_relation? hr) (length_lt_of_identifier? hi) }
      else none

def separatorText : Connective → List Char
  | .and => " AND ".toList
  | .or => " OR ".toList

theorem length_separatorText_pos (connective : Connective) :
    0 < (separatorText connective).length := by
  cases connective <;> decide

def separator? (s : List Char) : Option (Connective × List Char) :=
  [Connective.and, Connective.or].findSome? fun connective =>
    (skip? (separatorText connective) s).map fun rest => (connective, rest)

theorem length_lt_of_separator? {s rest : List Char} {connective : Connective}
    (h : separator? s = some (connective, rest)) : rest.length < s.length := by
  obtain ⟨other, _, h⟩ := List.exists_of_findSome?_eq_some h
  obtain ⟨after, hafter, heq⟩ := Option.map_eq_some_iff.1 h
  cases heq
  have h₁ := length_of_skip? hafter
  have h₂ := length_separatorText_pos connective
  omega

def skipSeparator? (connective : Connective) (s : List Char) : Option (Shorter s) :=
  (skip? (separatorText connective) s).attach.map fun rest =>
    ⟨rest.1, by
      have h₁ := length_of_skip? rest.2
      have h₂ := length_separatorText_pos connective
      omega⟩

def closing? (s : List Char) : Option (Shorter s) :=
  (skip? [')'] s).attach.map fun rest =>
    ⟨rest.1, by
      have := length_of_skip? rest.2
      rw [List.length_singleton] at this
      omega⟩

mutual

def predicate? (s : List Char) (operands : List Value) : Option (Parsed Taken s) :=
  match s with
  | '"' :: s₁ => do
    let single ← comparison? s₁ operands
    return ⟨single.value, single.rest, Nat.lt_succ_of_lt single.length_lt⟩
  | '(' :: s₁ => do
    let first ← predicate? s₁ operands
    have h₁ := first.length_lt
    match hs : separator? first.rest with
    | none => none
    | some (connective, s₂) => do
      have h₂ := length_lt_of_separator? hs
      let others ← parts? connective s₂ first.value.operands
      have h₃ := others.length_lt
      return {
        value :=
          ⟨.group connective (first.value.predicate :: others.value.predicates),
            others.value.operands⟩
        rest := others.rest
        length_lt := by simp only [List.length_cons]; omega }
  | _ => none
termination_by 2 * s.length
decreasing_by all_goals simp only [List.length_cons]; omega

def parts? (connective : Connective) (s : List Char) (operands : List Value) :
    Option (Parsed TakenAll s) := do
  let first ← predicate? s operands
  have h₁ := first.length_lt
  match closing? first.rest with
  | some rest =>
    return {
      value := ⟨[first.value.predicate], first.value.operands⟩
      rest := rest.1
      length_lt := Nat.lt_trans rest.2 h₁ }
  | none => do
    let next ← skipSeparator? connective first.rest
    have h₂ := next.2
    let others ← parts? connective next.1 first.value.operands
    have h₃ := others.length_lt
    return {
      value := ⟨first.value.predicate :: others.value.predicates, others.value.operands⟩
      rest := others.rest
      length_lt := by omega }
termination_by 2 * s.length + 1
decreasing_by all_goals omega

end

end Criteria.Sql.Reader

namespace Criteria.Sql

/--
Read a condition that makes up a whole text, with placeholders for all the operands.
-/
def Predicate.read? (text : String) (operands : List Value) : Option Predicate := do
  let whole ← Reader.predicate? text.toList operands
  if whole.rest.isEmpty && whole.value.operands.isEmpty then some whole.value.predicate else none

end Criteria.Sql
