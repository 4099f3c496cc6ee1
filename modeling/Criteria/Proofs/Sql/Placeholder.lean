import Criteria.Proofs.Sql.Reading

/-!
This module contains the proof that a written SQL condition has one placeholder for each of its operands.
Question marks in the names of columns are none.
-/

namespace Criteria.Sql

def outsideQuotes (quoted : Bool) : List Char → List Char
  | [] => []
  | c :: s =>
    if c = '"' then outsideQuotes (!quoted) s
    else if quoted then outsideQuotes quoted s
    else c :: outsideQuotes quoted s

def placeholderCount (s : List Char) : Nat :=
  (outsideQuotes false s).count '?'

theorem outsideQuotes_append {s : List Char} (h : '"' ∉ s) (rest : List Char) :
    outsideQuotes false (s ++ rest) = s ++ outsideQuotes false rest := by
  induction s with
  | nil => rfl
  | cons c s ih =>
    rw [List.mem_cons, not_or] at h
    rw [List.cons_append, outsideQuotes, if_neg (Ne.symm h.1), ih h.2]
    rfl

theorem outsideQuotes_escape (name rest : List Char) :
    outsideQuotes true (Reader.escape name ++ rest) = outsideQuotes true rest := by
  unfold Reader.escape
  induction name with
  | nil => rfl
  | cons c name ih =>
    rw [List.flatMap_cons, List.append_assoc]
    split
    · simp [outsideQuotes, ih]
    next hc => simp [outsideQuotes, hc, ih]

theorem outsideQuotes_quoteIdentifier (name : String) (rest : List Char) :
    outsideQuotes false ((quoteIdentifier name).toList ++ rest) = outsideQuotes false rest := by
  rw [Reader.toList_quoteIdentifier, List.cons_append, List.append_assoc, outsideQuotes]
  rw [if_pos rfl, Bool.not_false, outsideQuotes_escape]
  rfl

theorem placeholderCount_append {s : List Char} (h : '"' ∉ s) (rest : List Char) :
    placeholderCount (s ++ rest) = s.count '?' + placeholderCount rest := by
  unfold placeholderCount
  rw [outsideQuotes_append h, List.count_append]

theorem placeholderCount_quoteIdentifier (name : String) (rest : List Char) :
    placeholderCount ((quoteIdentifier name).toList ++ rest) = placeholderCount rest := by
  unfold placeholderCount
  rw [outsideQuotes_quoteIdentifier]

theorem count_placeholders (count : Nat) : (placeholders count).toList.count '?' = count := by
  match count with
  | 0 => rfl
  | 1 => rfl
  | count + 2 =>
    rw [Reader.toList_placeholders_succ]
    have := count_placeholders (count + 1)
    simp [this]

theorem not_mem_placeholders (count : Nat) : '"' ∉ (placeholders count).toList := by
  match count with
  | 0 => decide
  | 1 => decide
  | count + 2 =>
    rw [Reader.toList_placeholders_succ]
    have := not_mem_placeholders (count + 1)
    simp [this]

theorem not_mem_writeRelation (operator : Operator) (count : Nat) :
    '"' ∉ (writeRelation operator count).toList := by
  have := not_mem_placeholders count
  cases operator <;> simp [writeRelation, this]

theorem count_writeRelation {operator : Operator} {count : Nat}
    (h : operator.arity.accepts count) :
    (writeRelation operator count).toList.count '?' = count := by
  have := count_placeholders count
  simp only [Operator.arity, Arity.accepts] at h
  cases operator <;> simp_all [writeRelation]

theorem placeholderCount_comparison {comparison : Comparison}
    (h : comparison.operator.arity.accepts comparison.operands.length) (rest : List Char) :
    placeholderCount (comparison.toText.toList ++ rest) =
      comparison.operands.length + placeholderCount rest := by
  unfold Comparison.toText
  rw [String.toList_append, List.append_assoc, placeholderCount_quoteIdentifier]
  rw [placeholderCount_append (not_mem_writeRelation _ _), count_writeRelation h]

theorem not_mem_separatorText (connective : Connective) :
    '"' ∉ Reader.separatorText connective := by
  cases connective <;> decide

theorem count_separatorText (connective : Connective) :
    (Reader.separatorText connective).count '?' = 0 := by
  cases connective <;> rfl

theorem placeholderCount_cons {c : Char} (hq : c ≠ '"') (hp : c ≠ '?') (rest : List Char) :
    placeholderCount (c :: rest) = placeholderCount rest := by
  unfold placeholderCount
  rw [outsideQuotes, if_neg hq]
  exact List.count_cons_of_ne hp

theorem placeholderCount_write (connective : Connective) {children : List Predicate}
    (h : ∀ child ∈ children, ∀ rest, placeholderCount (child.toText.toList ++ rest) =
      child.parameters.length + placeholderCount rest) (rest : List Char) :
    placeholderCount (Reader.write connective children ++ rest) =
      (children.flatMap Predicate.parameters).length + placeholderCount rest := by
  induction children with
  | nil => simp [Reader.write]
  | cons child children ih =>
    rw [List.forall_mem_cons] at h
    cases children with
    | nil =>
      unfold Reader.write
      rw [List.map_singleton, List.intercalate_singleton, List.flatMap_singleton, h.1]
    | cons next children =>
      rw [Reader.write_cons_cons, h.1, placeholderCount_append (not_mem_separatorText _)]
      rw [count_separatorText, ih h.2]
      simp only [List.flatMap_cons, List.length_append]
      omega

theorem placeholderCount_toText_append {predicate : Predicate} (h : predicate.IsReadable) :
    ∀ rest, placeholderCount (predicate.toText.toList ++ rest) =
      predicate.parameters.length + placeholderCount rest := by
  induction h with
  | atom h =>
    intro rest
    simp [Predicate.toText, Predicate.parameters, placeholderCount_comparison h]
  | group _ _ ih =>
    intro rest
    rw [Reader.toList_toText_group, placeholderCount_cons (by decide) (by decide)]
    rw [placeholderCount_write _ ih, placeholderCount_cons (by decide) (by decide)]
    rw [Reader.parameters_group]

theorem placeholderCount_toText {predicate : Predicate} (h : predicate.IsReadable) :
    placeholderCount predicate.toText.toList = predicate.parameters.length := by
  have := placeholderCount_toText_append h []
  rwa [List.append_nil] at this

end Criteria.Sql
