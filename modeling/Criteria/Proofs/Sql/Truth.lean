import Criteria.Proofs.Formula.Holds
import Criteria.Proofs.Sql.Rendering
import Criteria.Sql.Truth
import Mathlib.Data.List.Nodup

/-!
This module contains the proof that a condition in SQL is true of the rows whose records satisfy the condition.
Where a comparison is unknown, the direct evaluation says that it does not hold.
-/

namespace Criteria.Sql

namespace Truth

theorem ofOption_eq_true_iff {b : Option Bool} : ofOption b = true ↔ b = some .true := by
  match b with
  | none => simp [ofOption]
  | some .false => simp [ofOption]
  | some .true => simp [ofOption]

theorem ofOption_eq_false_iff {b : Option Bool} : ofOption b = false ↔ b = some .false := by
  match b with
  | none => simp [ofOption]
  | some .false => simp [ofOption]
  | some .true => simp [ofOption]

theorem not_eq_true_iff {t : Truth} : t.not = true ↔ t = false := by
  cases t <;> simp [not]

theorem or_eq_false_iff {a b : Truth} : a.or b = false ↔ a = false ∧ b = false := by
  cases a <;> cases b <;> simp [or]

theorem any_eq_false_iff {truths : List Truth} : any truths = false ↔ ∀ t ∈ truths, t = false := by
  induction truths with
  | nil => simp [any]
  | cons t truths ih =>
    rw [any, List.foldr_cons, ← any, or_eq_false_iff, ih, List.forall_mem_cons]

end Truth

theorem compareTruth_some_eq_true_iff {holds : Ordering → Bool} {value operand : Value} :
    compareTruth holds (some value) operand = .true ↔ (value.compare operand).any holds := by
  unfold compareTruth
  dsimp only [Value.compare?]
  rw [Truth.ofOption_eq_true_iff]
  cases value.compare operand <;> simp

theorem compareTruth_some_eq_false_iff {holds : Ordering → Bool} {value operand : Value} :
    compareTruth holds (some value) operand = .false ↔
      (value.compare operand).any fun o => !holds o := by
  unfold compareTruth
  dsimp only [Value.compare?]
  rw [Truth.ofOption_eq_false_iff]
  cases value.compare operand <;> simp

theorem compareTruth_none (holds : Ordering → Bool) (operand : Value) :
    compareTruth holds none operand = .unknown := rfl

theorem likeTruth_eq_true_iff {value pattern : Value} :
    likeTruth (some value) pattern = .true ↔ Operator.like.relates value [pattern] := by
  cases value <;> cases pattern <;>
    simp [likeTruth, Truth.ofOption_eq_true_iff, Operator.relates, Value.text?]

theorem likeTruth_eq_false_iff {value pattern : Value} :
    likeTruth (some value) pattern = .false ↔ Operator.notLike.relates value [pattern] := by
  cases value <;> cases pattern <;>
    simp [likeTruth, Truth.ofOption_eq_false_iff, Operator.relates, Value.text?]

theorem isNe_eq_not_isEq : Ordering.isNe = fun o => !o.isEq := by
  funext o
  cases o <;> rfl

theorem relationTruth_none_eq_true_iff {operator : Operator} {operands : List Value}
    (h : operator.arity.accepts operands.length) :
    relationTruth operator none operands = .true ↔ operator.evaluate none operands := by
  simp only [Operator.arity, Arity.accepts] at h
  cases operator with
  | isIn =>
    simp [relationTruth, Truth.any_eq_true_iff, compareTruth_none, Operator.evaluate]
  | notIn =>
    cases operands with
    | nil => cases h
    | cons first others =>
      -- The comparison with the first operand is unknown already, so the list is not ruled out.
      simp [relationTruth, Truth.not_eq_true_iff, Truth.any_eq_false_iff, compareTruth_none,
        Operator.evaluate]
  | isNull =>
    rw [decide_eq_true_eq, List.length_eq_zero_iff] at h
    subst h
    decide
  | notNull =>
    rw [decide_eq_true_eq, List.length_eq_zero_iff] at h
    subst h
    decide
  | between =>
    rw [decide_eq_true_eq, List.length_eq_two] at h
    rcases h with ⟨lower, upper, rfl⟩
    simp [relationTruth, compareTruth_none, Truth.and, Operator.evaluate]
  | _ =>
    rw [decide_eq_true_eq, List.length_eq_one_iff] at h
    rcases h with ⟨operand, rfl⟩
    simp [relationTruth, compareTruth_none, likeTruth, Truth.ofOption, Truth.not, Operator.evaluate]

theorem relationTruth_some_eq_true_iff {operator : Operator} {operands : List Value}
    (h : operator.arity.accepts operands.length) (value : Value) :
    relationTruth operator (some value) operands = .true ↔
      operator.evaluate (some value) operands := by
  simp only [Operator.arity, Arity.accepts] at h
  cases operator with
  | isIn =>
    cases operands with
    | nil => cases h
    | cons first others =>
      simp only [relationTruth, Truth.any_eq_true_iff, List.mem_map, exists_exists_and_eq_and,
        compareTruth_some_eq_true_iff, Operator.evaluate, Operator.relates, List.any_eq_true]
  | notIn =>
    cases operands with
    | nil => cases h
    | cons first others =>
      simp only [relationTruth, Truth.not_eq_true_iff, Truth.any_eq_false_iff, List.forall_mem_map,
        compareTruth_some_eq_false_iff, Operator.evaluate, Operator.relates, List.all_eq_true,
        isNe_eq_not_isEq]
  | isNull =>
    rw [decide_eq_true_eq, List.length_eq_zero_iff] at h
    subst h
    simp [relationTruth, Truth.ofOption_eq_true_iff, Operator.evaluate]
  | notNull =>
    rw [decide_eq_true_eq, List.length_eq_zero_iff] at h
    subst h
    simp [relationTruth, Truth.ofOption_eq_true_iff, Operator.evaluate]
  | between =>
    rw [decide_eq_true_eq, List.length_eq_two] at h
    rcases h with ⟨lower, upper, rfl⟩
    simp only [relationTruth, Truth.and_eq_true_iff, compareTruth_some_eq_true_iff,
      Operator.evaluate, Operator.relates, Bool.and_eq_true]
  | like =>
    rw [decide_eq_true_eq, List.length_eq_one_iff] at h
    rcases h with ⟨pattern, rfl⟩
    exact likeTruth_eq_true_iff
  | notLike =>
    rw [decide_eq_true_eq, List.length_eq_one_iff] at h
    rcases h with ⟨pattern, rfl⟩
    exact Truth.not_eq_true_iff.trans likeTruth_eq_false_iff
  | _ =>
    rw [decide_eq_true_eq, List.length_eq_one_iff] at h
    rcases h with ⟨operand, rfl⟩
    exact compareTruth_some_eq_true_iff

theorem relationTruth_eq_true_iff {operator : Operator} {operands : List Value}
    (h : operator.arity.accepts operands.length) (cell : Option Value) :
    relationTruth operator cell operands = .true ↔ operator.evaluate cell operands := by
  cases cell with
  | none => exact relationTruth_none_eq_true_iff h
  | some value => exact relationTruth_some_eq_true_iff h value

def Predicate.isTrue (row : Row) (predicate : Predicate) : Bool :=
  predicate.truth row = .true

theorem isTrue_group_and (row : Row) (predicates : List Predicate) :
    Predicate.isTrue row (.group .and predicates) = predicates.all (Predicate.isTrue row) := by
  unfold Predicate.isTrue
  rw [Predicate.truth_group, Bool.eq_iff_iff, decide_eq_true_eq, List.all_eq_true]
  simp [Predicate.joinTruth, Truth.all_eq_true_iff]

theorem isTrue_group_or (row : Row) (predicates : List Predicate) :
    Predicate.isTrue row (.group .or predicates) = predicates.any (Predicate.isTrue row) := by
  unfold Predicate.isTrue
  rw [Predicate.truth_group, Bool.eq_iff_iff, decide_eq_true_eq, List.any_eq_true]
  simp [Predicate.joinTruth, Truth.any_eq_true_iff]

variable {R : Type}

/--
What it means that a row shows a record: the column of each field of a condition holds what the field reads.
-/
def Shows (columns : ColumnMap) (condition : Condition R) (record : R) (row : Row) : Prop :=
  ∀ leaf ∈ condition.atoms, row (columns.column leaf.field.name) = leaf.field.read record

theorem exists_shows {registry : Registry R} {columns : ColumnMap} {condition : Condition R}
    (hfields : ∀ leaf ∈ condition.atoms, leaf.field ∈ registry.fields)
    (hcolumns : ∀ a ∈ condition.atoms, ∀ b ∈ condition.atoms,
      columns.column a.field.name = columns.column b.field.name → a.field.name = b.field.name)
    (record : R) : ∃ row, Shows columns condition record row := by
  refine ⟨fun column => (condition.atoms.find? fun leaf =>
    columns.column leaf.field.name = column).bind fun leaf => leaf.field.read record, ?_⟩
  intro leaf hleaf
  dsimp only
  cases hfind : condition.atoms.find? fun other =>
      columns.column other.field.name = columns.column leaf.field.name with
  | none =>
    have := List.find?_eq_none.1 hfind leaf hleaf
    simp at this
  | some other =>
    have hother := List.mem_of_find?_eq_some hfind
    have hcolumn := List.find?_some hfind
    rw [decide_eq_true_eq] at hcolumn
    have hname := hcolumns other hother leaf hleaf hcolumn
    -- The names of the fields of a registry are all different, so it is the same field.
    have hfield := List.inj_on_of_nodup_map registry.nodup_names (hfields other hother)
      (hfields leaf hleaf) hname
    rw [Option.bind_some, hfield]

theorem all_isTrue_columnTree {columns : ColumnMap} {condition : Condition R}
    (h : condition.IsValid) {record : R} {row : Row} (hrow : Shows columns condition record row) :
    (columnTree columns condition).all (Predicate.isTrue row) = condition.isMatch record := by
  unfold columnTree
  rw [Formula.all_map_fold_pruned (isTrue_group_and row) (isTrue_group_or row)]
  unfold Condition.isMatch
  apply Formula.holds_congr
  intro leaf hleaf
  unfold Predicate.isTrue Comparison.ofLeaf
  rw [Predicate.truth_atom, hrow leaf hleaf, Bool.eq_iff_iff, decide_eq_true_eq]
  exact relationTruth_eq_true_iff (h leaf hleaf).arity _

/--
A condition is read back from what it compiles to as a fragment that is true of the rows whose records satisfy
the condition. Nothing is compiled only if all records satisfy it.
-/
theorem exists_compile_eq_ok_and_truth_iff (registry : Registry R) (columns : ColumnMap)
    (condition : Condition R)
    (h : ∀ leaf ∈ condition.atoms, Leaf.make leaf.field leaf.operator leaf.operands = .ok leaf)
    (hfields : ∀ leaf ∈ condition.atoms, leaf.field ∈ registry.fields)
    (hcolumns : ∀ a ∈ condition.atoms, ∀ b ∈ condition.atoms,
      columns.column a.field.name = columns.column b.field.name → a.field.name = b.field.name) :
    ∃ compiled, condition.compile (backend R columns) = .ok compiled ∧
      (compiled = none → ∀ record, condition.isMatch record) ∧
      ∀ predicate ∈ compiled, ∃ fragment,
        Predicate.read? predicate.toText predicate.parameters = some fragment ∧
        ∀ record, (∃ row, Shows columns condition record row) ∧
          ∀ row, Shows columns condition record row →
            (fragment.truth row = .true ↔ condition.isMatch record) := by
  rw [← Condition.isValid_iff_make] at h
  refine ⟨_, compile_eq_ok columns condition, ?_, ?_⟩
  · intro hnone record
    rcases exists_shows hfields hcolumns record with ⟨row, hrow⟩
    rw [← all_isTrue_columnTree h hrow, hnone]
    rfl
  · intro predicate hpredicate
    refine ⟨predicate, ?_, ?_⟩
    · exact Predicate.read?_toText (isReadable_of_mem_columnTree h predicate hpredicate)
    · intro record
      refine ⟨exists_shows hfields hcolumns record, ?_⟩
      intro row hrow
      have hall := all_isTrue_columnTree h hrow
      rw [Option.mem_def.1 hpredicate, Option.all_some] at hall
      rw [← hall]
      unfold Predicate.isTrue
      rw [decide_eq_true_eq]

theorem exists_compile_eq_ok_and_truth_iff_cell :
    let registry : Registry (Option Value) := ⟨[.cell], by simp⟩
    let columns : ColumnMap := [("cell", "a\" = ? AND \"b")]
    let condition : Condition (Option Value) :=
      .group .or [.atom ⟨.cell, .notLike, [.string "D%_e"]⟩,
        .group .and [.atom ⟨.cell, .notIn, [.string "a", .string "b"]⟩, .group .or [],
          .atom ⟨.cell, .between, [.string "c", .string "d"]⟩]]
    (∀ leaf ∈ condition.atoms, Leaf.make leaf.field leaf.operator leaf.operands = .ok leaf) ∧
      (∀ leaf ∈ condition.atoms, leaf.field ∈ registry.fields) ∧
      (∀ a ∈ condition.atoms, ∀ b ∈ condition.atoms,
        columns.column a.field.name = columns.column b.field.name → a.field.name = b.field.name) ∧
      ∃ compiled, condition.compile (backend (Option Value) columns) = .ok compiled ∧
        (compiled = none → ∀ record, condition.isMatch record) ∧
        ∀ predicate ∈ compiled, ∃ fragment,
          Predicate.read? predicate.toText predicate.parameters = some fragment ∧
          ∀ record, (∃ row, Shows columns condition record row) ∧
            ∀ row, Shows columns condition record row →
              (fragment.truth row = .true ↔ condition.isMatch record) := by
  intro registry columns condition
  have h : ∀ leaf ∈ condition.atoms,
      Leaf.make leaf.field leaf.operator leaf.operands = .ok leaf := by
    simp only [condition, Formula.atoms_group, Formula.atoms_atom, List.flatMap_cons,
      List.flatMap_nil, List.cons_append, List.nil_append, List.forall_mem_cons]
    exact ⟨rfl, rfl, rfl, by simp⟩
  have hfields : ∀ leaf ∈ condition.atoms, leaf.field = .cell := by
    simp [condition]
  have hregistry : ∀ leaf ∈ condition.atoms, leaf.field ∈ registry.fields := by
    intro leaf hleaf
    rw [hfields leaf hleaf]
    apply List.mem_singleton_self
  have hcolumns : ∀ a ∈ condition.atoms, ∀ b ∈ condition.atoms,
      columns.column a.field.name = columns.column b.field.name → a.field.name = b.field.name := by
    intro a ha b hb _
    rw [hfields a ha, hfields b hb]
  exact ⟨h, hregistry, hcolumns,
    exists_compile_eq_ok_and_truth_iff registry columns condition h hregistry hcolumns⟩

end Criteria.Sql
