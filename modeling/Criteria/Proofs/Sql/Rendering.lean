import Criteria.Proofs.Formula.Simplification
import Criteria.Proofs.Leaf
import Criteria.Proofs.Sql.Placeholder
import Criteria.Sql.Backend

/-!
This module contains the proof that conditions are written in SQL without ambiguity: the text and the operands
say which comparisons of columns are meant, and how they are grouped.
-/

namespace Criteria.Sql

variable {R : Type} {columns : ColumnMap} {condition : Condition R}

inductive ColumnMap.IsColumnOf (columns : ColumnMap) (field : String) : String → Prop where
  | listed {column : String} {before after : ColumnMap} :
      columns = before ++ (field, column) :: after → (∀ entry ∈ before, field ≠ entry.1) →
        IsColumnOf columns field column
  | unlisted : (∀ entry ∈ columns, field ≠ entry.1) → IsColumnOf columns field field

structure Comparison.IsOfLeaf (columns : ColumnMap) (leaf : Leaf R) (comparison : Comparison) : Prop where
  column : columns.IsColumnOf leaf.field.name comparison.column
  operator : comparison.operator = leaf.operator
  operands : comparison.operands = leaf.operands

/--
What it means that a tree of comparisons is what a condition says of columns. Groups without leaves are left out of it,
groups of one child are unwrapped, and all else stands as it does in the condition.
-/
def IsColumnTree (columns : ColumnMap) (condition : Condition R) (tree : Predicate) : Prop :=
  ∃ (simple : Condition R) (ofLeaf : Leaf R → Comparison),
    condition.SimplifiesTo simple ∧ simple.IsSimple ∧
      (∀ leaf ∈ simple.atoms, (ofLeaf leaf).IsOfLeaf columns leaf) ∧ tree = simple.map ofLeaf

theorem ColumnMap.isColumnOf_iff {field column : String} :
    columns.IsColumnOf field column ↔ columns.column field = column := by
  unfold ColumnMap.column
  constructor
  · intro h
    cases h with
    | listed hcolumns hbefore =>
      rw [List.lookup_eq_some_iff.mpr ⟨_, _, hcolumns, by simpa using hbefore⟩]
      rfl
    | unlisted hcolumns =>
      rw [List.lookup_eq_none_iff.mpr (by simpa using hcolumns)]
      rfl
  · intro h
    cases hlookup : columns.lookup field with
    | none =>
      rw [hlookup, Option.getD_none] at h
      rw [← h]
      apply IsColumnOf.unlisted
      simpa using List.lookup_eq_none_iff.mp hlookup
    | some listed =>
      rw [hlookup, Option.getD_some] at h
      rcases List.lookup_eq_some_iff.mp hlookup with ⟨before, after, hcolumns, hbefore⟩
      rw [h] at hcolumns
      exact .listed hcolumns (by simpa using hbefore)

def Comparison.ofLeaf (columns : ColumnMap) (leaf : Leaf R) : Comparison :=
  ⟨columns.column leaf.field.name, leaf.operator, leaf.operands⟩

theorem Comparison.isOfLeaf_iff {leaf : Leaf R} {comparison : Comparison} :
    comparison.IsOfLeaf columns leaf ↔ comparison = ofLeaf columns leaf := by
  constructor
  · intro h
    have hcolumn := ColumnMap.isColumnOf_iff.mp h.column
    unfold ofLeaf
    rw [hcolumn, ← h.operator, ← h.operands]
  · intro h
    rw [h]
    exact ⟨ColumnMap.isColumnOf_iff.mpr rfl, rfl, rfl⟩

def columnTree (columns : ColumnMap) (condition : Condition R) : Option Predicate :=
  condition.pruned.map (Formula.fold (fun leaf => .atom (Comparison.ofLeaf columns leaf)) .group)

theorem compile_eq_ok (columns : ColumnMap) (condition : Condition R) :
    condition.compile (backend R columns) = .ok (columnTree columns condition) := by
  apply Formula.compile_eq_ok
  intro leaf _
  rfl

theorem columnTree_eq_none_iff : columnTree columns condition = none ↔ condition.isEmpty := by
  unfold columnTree
  rw [Option.map_eq_none_iff, Formula.pruned_eq_none_iff]

theorem isColumnTree_iff {tree : Predicate} :
    IsColumnTree columns condition tree ↔ columnTree columns condition = some tree := by
  unfold columnTree
  constructor
  · intro h
    rcases h with ⟨simple, ofLeaf, hsimplifies, hsimple, hleaves, rfl⟩
    rw [Formula.pruned_eq_some_iff.mpr ⟨hsimplifies, hsimple⟩, Option.map_some, Option.some.injEq]
    apply Formula.map_congr
    intro leaf hleaf
    exact (Comparison.isOfLeaf_iff.mp (hleaves leaf hleaf)).symm
  · intro h
    rcases Option.map_eq_some_iff.mp h with ⟨simple, hpruned, rfl⟩
    rcases Formula.pruned_eq_some_iff.mp hpruned with ⟨hsimplifies, hsimple⟩
    refine ⟨simple, Comparison.ofLeaf columns, hsimplifies, hsimple, ?_, rfl⟩
    intro leaf _
    exact Comparison.isOfLeaf_iff.mpr rfl

theorem isReadable_of_mem_columnTree (h : condition.IsValid) :
    ∀ predicate ∈ columnTree columns condition, predicate.IsReadable := by
  apply Formula.forall_mem_map_fold_pruned
  · intro leaf hleaf
    exact .atom (h leaf hleaf).arity
  · intro connective predicates hlength hpredicates
    exact .group hlength hpredicates

/--
What a condition compiles to is read back as the one tree of comparisons that the condition says of columns, and it has
a placeholder for each operand. Nothing is compiled only if the condition is empty. Conditions that are written alike
say the same of columns.
-/
theorem exists_compile_eq_ok_and_read_eq (columns : ColumnMap) (condition : Condition R)
    (h : ∀ leaf ∈ condition.atoms, Leaf.make leaf.field leaf.operator leaf.operands = .ok leaf) :
    ∃ compiled, condition.compile (backend R columns) = .ok compiled ∧
      (compiled = none ↔ condition.isEmpty) ∧
      ∀ predicate ∈ compiled, ∃ tree,
        Predicate.read? predicate.toText predicate.parameters = some tree ∧
        (∀ tree', IsColumnTree columns condition tree' ↔ tree' = tree) ∧
        placeholderCount predicate.toText.toList = predicate.parameters.length ∧
        ∀ {S : Type} (others : ColumnMap) (other : Condition S),
          (∀ leaf ∈ other.atoms, Leaf.make leaf.field leaf.operator leaf.operands = .ok leaf) →
          ∀ predicate', other.compile (backend S others) = .ok (some predicate') →
            predicate'.toText = predicate.toText → predicate'.parameters = predicate.parameters →
              ∀ tree', IsColumnTree others other tree' ↔ tree' = tree := by
  rw [← Condition.isValid_iff_make] at h
  refine ⟨_, compile_eq_ok columns condition, columnTree_eq_none_iff, ?_⟩
  intro predicate hpredicate
  have hreadable := isReadable_of_mem_columnTree h predicate hpredicate
  refine ⟨predicate, Predicate.read?_toText hreadable, ?_, placeholderCount_toText hreadable, ?_⟩
  · intro tree'
    rw [isColumnTree_iff, Option.mem_def.mp hpredicate, Option.some.injEq, eq_comm]
  · intro S others other hother predicate' hcompile htext hparameters tree'
    rw [← Condition.isValid_iff_make] at hother
    rw [compile_eq_ok, Except.ok.injEq] at hcompile
    have hreadable' := isReadable_of_mem_columnTree hother predicate' hcompile
    rw [isColumnTree_iff, hcompile, hreadable'.eq_of_toText_eq hreadable htext hparameters]
    rw [Option.some.injEq, eq_comm]

theorem exists_compile_eq_ok_and_read_eq_cell :
    let columns : ColumnMap := [("cell", "a\" = ? AND \"b")]
    let condition : Condition (Option Value) :=
      .group .or [.atom ⟨.cell, .like, [.string "D%_e"]⟩,
        .group .and [.atom ⟨.cell, .isIn, [.string "a", .string "b"]⟩, .group .or [],
          .group .or [.atom ⟨.cell, .between, [.string "c", .string "d"]⟩]]]
    let tree : Predicate :=
      .group .or [.atom ⟨"a\" = ? AND \"b", .like, [.string "D%_e"]⟩,
        .group .and [.atom ⟨"a\" = ? AND \"b", .isIn, [.string "a", .string "b"]⟩,
          .atom ⟨"a\" = ? AND \"b", .between, [.string "c", .string "d"]⟩]]
    (∀ leaf ∈ condition.atoms, Leaf.make leaf.field leaf.operator leaf.operands = .ok leaf) ∧
      ∃ predicate, condition.compile (backend (Option Value) columns) = .ok (some predicate) ∧
        Predicate.read? predicate.toText predicate.parameters = some tree := by
  intro columns condition tree
  have h : ∀ leaf ∈ condition.atoms,
      Leaf.make leaf.field leaf.operator leaf.operands = .ok leaf := by
    simp only [condition, Formula.atoms_group, Formula.atoms_atom, List.flatMap_cons,
      List.flatMap_nil, List.cons_append, List.nil_append, List.forall_mem_cons]
    exact ⟨rfl, rfl, rfl, by simp⟩
  have htree : columnTree columns condition = some tree := rfl
  rcases exists_compile_eq_ok_and_read_eq columns condition h with ⟨compiled, hcompile, _, hcompiled⟩
  rw [compile_eq_ok, htree, Except.ok.injEq] at hcompile
  rcases hcompiled tree hcompile.symm with ⟨tree', hread, htrees, _⟩
  refine ⟨h, tree, ?_, ?_⟩
  · rw [compile_eq_ok, htree]
  · rw [hread, (htrees tree).mp (isColumnTree_iff.mpr htree)]

end Criteria.Sql
