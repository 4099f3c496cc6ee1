import Criteria.Pattern.Scan
import Criteria.Sql.Predicate

/-!
This module contains the meaning of SQL conditions in a logic of three values. A comparison is unknown if its
column is null or if the values are not comparable, and a row is selected only if the condition is true of it.
-/

namespace Criteria.Sql

inductive Truth where
  | false
  | unknown
  | true
  deriving DecidableEq

namespace Truth

def ofOption : Option Bool → Truth
  | some .true => true
  | some .false => false
  | none => unknown

def not : Truth → Truth
  | false => true
  | unknown => unknown
  | true => false

def and : Truth → Truth → Truth
  | false, _ | _, false => false
  | true, true => true
  | _, _ => unknown

def or : Truth → Truth → Truth
  | true, _ | _, true => true
  | false, false => false
  | _, _ => unknown

def all (truths : List Truth) : Truth :=
  truths.foldr and true

def any (truths : List Truth) : Truth :=
  truths.foldr or false

theorem and_eq_true_iff {a b : Truth} : a.and b = true ↔ a = true ∧ b = true := by
  cases a <;> cases b <;> simp [and]

theorem or_eq_true_iff {a b : Truth} : a.or b = true ↔ a = true ∨ b = true := by
  cases a <;> cases b <;> simp [or]

theorem all_eq_true_iff {truths : List Truth} : all truths = true ↔ ∀ t ∈ truths, t = true := by
  induction truths with
  | nil => simp [all]
  | cons t truths ih =>
    rw [all, List.foldr_cons, ← all, and_eq_true_iff, ih, List.forall_mem_cons]

theorem any_eq_true_iff {truths : List Truth} : any truths = true ↔ ∃ t ∈ truths, t = true := by
  induction truths with
  | nil => simp [any]
  | cons t truths ih =>
    rw [any, List.foldr_cons, ← any, or_eq_true_iff, ih]
    simp only [List.mem_cons, exists_eq_or_imp]

end Truth

abbrev Row := String → Option Value

def compareTruth (holds : Ordering → Bool) (cell : Option Value) (operand : Value) : Truth :=
  .ofOption ((Value.compare? cell (some operand)).map holds)

def likeTruth (cell : Option Value) (pattern : Value) : Truth :=
  .ofOption do
    let text ← cell.bind Value.text?
    let pattern ← pattern.text?
    return isLike text pattern

/--
Whether what a column holds stands in the relation of an operator to the operands of a comparison. Without the
operands that the operator needs nothing is known.
-/
def relationTruth (operator : Operator) (cell : Option Value) (operands : List Value) : Truth :=
  match operator, operands with
  | .equal, [operand] => compareTruth Ordering.isEq cell operand
  | .notEqual, [operand] => compareTruth Ordering.isNe cell operand
  | .greaterThan, [operand] => compareTruth Ordering.isGT cell operand
  | .greaterThanOrEqual, [operand] => compareTruth Ordering.isGE cell operand
  | .lessThan, [operand] => compareTruth Ordering.isLT cell operand
  | .lessThanOrEqual, [operand] => compareTruth Ordering.isLE cell operand
  | .between, [lower, upper] =>
    (compareTruth Ordering.isGE cell lower).and (compareTruth Ordering.isLE cell upper)
  | .isIn, operands => .any (operands.map (compareTruth Ordering.isEq cell))
  | .notIn, operands => (Truth.any (operands.map (compareTruth Ordering.isEq cell))).not
  | .like, [pattern] => likeTruth cell pattern
  | .notLike, [pattern] => (likeTruth cell pattern).not
  | .isNull, [] => .ofOption (some cell.isNone)
  | .notNull, [] => .ofOption (some cell.isSome)
  | _, _ => .unknown

namespace Predicate

def joinTruth : Connective → List Truth → Truth
  | .and => Truth.all
  | .or => Truth.any

def truth (row : Row) (predicate : Predicate) : Truth :=
  predicate.fold
    (fun comparison => relationTruth comparison.operator (row comparison.column) comparison.operands)
    joinTruth

@[simp]
theorem truth_atom (row : Row) (comparison : Comparison) :
    truth row (.atom comparison) =
      relationTruth comparison.operator (row comparison.column) comparison.operands :=
  Formula.fold_atom _ _ _

@[simp]
theorem truth_group (row : Row) (connective : Connective) (children : List Predicate) :
    truth row (.group connective children) = joinTruth connective (children.map (truth row)) :=
  Formula.fold_group _ _ _ _

end Predicate

end Criteria.Sql
