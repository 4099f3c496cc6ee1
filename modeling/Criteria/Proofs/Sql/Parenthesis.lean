import Criteria.Proofs.Formula.Shape
import Criteria.Proofs.Sql.Reading
import Mathlib.Data.List.Infix

/-!
This module contains the proof that every group of a written SQL condition is in parentheses of its own, whatever the
names of the columns are. Quotes and parentheses are closed where they should be, so a group does not leak into what is
written around it.
-/

namespace Criteria.Sql

/--
The characters of a text outside of double quotes and of parentheses, where `depth` parentheses are open before it, and
`quoted` says whether it begins inside of double quotes. There is no answer if a parenthesis is closed that is not open,
or if anything is left open.
-/
def outside? (depth : Nat) (quoted : Bool) : List Char → Option (List Char)
  | [] => if depth = 0 && !quoted then some [] else none
  | c :: s =>
    if c = '"' then outside? depth (!quoted) s
    else if quoted then outside? depth quoted s
    else if c = '(' then outside? (depth + 1) quoted s
    else if c = ')' then
      if depth = 0 then none else outside? (depth - 1) quoted s
    else (outside? depth quoted s).map fun outside => if depth = 0 then c :: outside else outside

def isOrdinary (c : Char) : Bool :=
  c ≠ '"' && c ≠ '(' && c ≠ ')'

def IsEnclosed (text : String) : Prop :=
  ∃ inner : String, text = "(" ++ inner ++ ")" ∧ (outside? 0 false inner.toList).isSome

/--
Whether every group of a condition is written in parentheses of its own, and no disjunction is left outside of them.
-/
structure Predicate.IsSeparated (predicate : Predicate) : Prop where
  outside : ∃ outside, outside? 0 false predicate.toText.toList = some outside ∧ ¬"OR".toList <:+: outside
  groups : predicate.EveryGroup fun connective children => IsEnclosed (Predicate.toText (.group connective children))

def Spans (s outside : List Char) : Prop :=
  ∀ depth rest, outside? depth false (s ++ rest) =
    (outside? depth false rest).map fun others => if depth = 0 then outside ++ others else others

section Spans

variable {s t a b : List Char}

theorem spans_nil : Spans [] [] := by
  intro depth rest
  simp

theorem Spans.append (hs : Spans s a) (ht : Spans t b) : Spans (s ++ t) (a ++ b) := by
  intro depth rest
  rw [List.append_assoc, hs, ht, Option.map_map]
  congr 1
  funext others
  by_cases hdepth : depth = 0 <;> simp [hdepth]

theorem spans_singleton {c : Char} (hc : isOrdinary c) : Spans [c] [c] := by
  unfold isOrdinary at hc
  simp only [Bool.and_eq_true, decide_eq_true_eq] at hc
  rcases hc with ⟨⟨hquote, hopen⟩, hclose⟩
  intro depth rest
  rw [List.singleton_append, outside?, if_neg hquote, if_neg hopen, if_neg hclose]
  rfl

theorem spans_of_all (h : s.all isOrdinary) : Spans s s := by
  induction s with
  | nil => exact spans_nil
  | cons c s ih =>
    rw [List.all_cons, Bool.and_eq_true] at h
    exact (spans_singleton h.1).append (ih h.2)

theorem outside?_escape (depth : Nat) (name rest : List Char) :
    outside? depth true (Reader.escape name ++ rest) = outside? depth true rest := by
  unfold Reader.escape
  induction name with
  | nil => rfl
  | cons c name ih =>
    rw [List.flatMap_cons, List.append_assoc]
    split
    · simp [outside?, ih]
    next hc => simp [outside?, hc, ih]

theorem spans_quoteIdentifier (name : String) : Spans (quoteIdentifier name).toList [] := by
  intro depth rest
  rw [Reader.toList_quoteIdentifier, List.cons_append, List.append_assoc, outside?, if_pos rfl,
    Bool.not_false, outside?_escape, List.singleton_append, outside?, if_pos rfl]
  simp

theorem Spans.parenthesize (h : Spans s a) : Spans ('(' :: (s ++ [')'])) [] := by
  intro depth rest
  have hopen : outside? depth false ('(' :: (s ++ (')' :: rest))) =
      outside? (depth + 1) false (s ++ (')' :: rest)) := by
    simp [outside?]
  have hclose : outside? (depth + 1) false (')' :: rest) = outside? depth false rest := by
    simp [outside?]
  rw [List.cons_append, List.append_assoc, List.singleton_append, hopen, h, hclose]
  simp

theorem Spans.outside?_eq_some (h : Spans s a) : outside? 0 false s = some a := by
  have hspans := h 0 []
  rw [List.append_nil] at hspans
  rw [hspans]
  simp [outside?]

end Spans

theorem spans_placeholders (count : Nat) :
    Spans (placeholders count).toList (placeholders count).toList := by
  have hmark : Spans ['?'] ['?'] := spans_singleton (by decide)
  match count with
  | 0 => exact spans_nil
  | 1 => exact hmark
  | count + 2 =>
    have hseparator : Spans [',', ' '] [',', ' '] := spans_of_all (by decide)
    rw [Reader.toList_placeholders_succ]
    exact hmark.append (hseparator.append (spans_placeholders (count + 1)))

theorem spans_list {opening : String} (h : opening.toList.all isOrdinary) (count : Nat) :
    Spans (opening ++ "(" ++ placeholders count ++ ")").toList opening.toList := by
  have hspans := (spans_of_all h).append (spans_placeholders count).parenthesize
  rw [List.append_nil] at hspans
  simpa using hspans

theorem exists_spans_writeRelation (operator : Operator) (count : Nat) :
    ∃ outside, Spans (writeRelation operator count).toList outside ∧ ¬"OR".toList <:+: outside := by
  cases operator with
  | isIn => exact ⟨_, @spans_list " IN " (by decide) count, by decide⟩
  | notIn => exact ⟨_, @spans_list " NOT IN " (by decide) count, by decide⟩
  | _ =>
    refine ⟨_, spans_of_all ?_, ?_⟩
    · rw [writeRelation]
      decide
    · rw [writeRelation]
      decide

theorem exists_spans_comparison (comparison : Comparison) :
    ∃ outside, Spans comparison.toText.toList outside ∧ ¬"OR".toList <:+: outside := by
  rcases exists_spans_writeRelation comparison.operator comparison.operands.length with ⟨outside, hspans, hor⟩
  refine ⟨outside, ?_, hor⟩
  unfold Comparison.toText
  rw [String.toList_append]
  exact (spans_quoteIdentifier comparison.column).append hspans

theorem exists_spans_write (connective : Connective) {children : List Predicate}
    (h : ∀ child ∈ children, ∃ outside, Spans child.toText.toList outside) :
    ∃ outside, Spans (Reader.write connective children) outside := by
  induction children with
  | nil => exact ⟨[], spans_nil⟩
  | cons child children ih =>
    rw [List.forall_mem_cons] at h
    rcases h.1 with ⟨first, hfirst⟩
    cases children with
    | nil =>
      unfold Reader.write
      rw [List.map_singleton, List.intercalate_singleton]
      exact ⟨first, hfirst⟩
    | cons next children =>
      rcases ih h.2 with ⟨others, hothers⟩
      have hseparator : Spans (Reader.separatorText connective) (Reader.separatorText connective) := by
        apply spans_of_all
        cases connective <;> decide
      have hwrite := Reader.write_cons_cons connective child next children []
      rw [List.append_nil, List.append_nil] at hwrite
      rw [hwrite]
      exact ⟨_, hfirst.append (hseparator.append hothers)⟩

theorem toList_toText_group_eq (connective : Connective) (children : List Predicate) :
    (Predicate.toText (.group connective children)).toList =
      '(' :: (Reader.write connective children ++ [')']) := by
  have htext := Reader.toList_toText_group connective children []
  rwa [List.append_nil] at htext

theorem exists_spans_toText (predicate : Predicate) :
    ∃ outside, Spans predicate.toText.toList outside ∧ ¬"OR".toList <:+: outside := by
  induction predicate using Formula.ind with
  | atom comparison =>
    have htext : Predicate.toText (.atom comparison) = comparison.toText := by
      simp [Predicate.toText]
    rw [htext]
    exact exists_spans_comparison comparison
  | group connective children ih =>
    have hchildren : ∀ child ∈ children, ∃ outside, Spans (Predicate.toText child).toList outside := by
      intro child hchild
      rcases ih child hchild with ⟨outside, hspans, _⟩
      exact ⟨outside, hspans⟩
    rcases exists_spans_write connective hchildren with ⟨_, hspans⟩
    rw [toList_toText_group_eq]
    exact ⟨[], hspans.parenthesize, by decide⟩

theorem isEnclosed_group (connective : Connective) (children : List Predicate) :
    IsEnclosed (Predicate.toText (.group connective children)) := by
  have hchildren : ∀ child ∈ children, ∃ outside, Spans child.toText.toList outside := by
    intro child _
    rcases exists_spans_toText child with ⟨outside, hspans, _⟩
    exact ⟨outside, hspans⟩
  rcases exists_spans_write connective hchildren with ⟨outside, hspans⟩
  refine ⟨String.ofList (Reader.write connective children), ?_, ?_⟩
  · rw [← String.toList_inj, toList_toText_group_eq]
    simp
  · rw [String.toList_ofList, hspans.outside?_eq_some]
    rfl

theorem Predicate.isSeparated (predicate : Predicate) : predicate.IsSeparated := by
  rcases exists_spans_toText predicate with ⟨outside, hspans, hor⟩
  exact ⟨⟨outside, hspans.outside?_eq_some, hor⟩, Formula.everyGroup_of_forall isEnclosed_group predicate⟩

end Criteria.Sql
