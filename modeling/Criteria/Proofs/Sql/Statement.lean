import Criteria.Proofs.Sql.Parenthesis
import Criteria.Proofs.Sql.Rendering
import Criteria.Proofs.Text.Numeral
import Mathlib.Algebra.GroupWithZero.Nat
import Mathlib.Data.List.Forall2
import Mathlib.Data.List.Induction

/-!
This module contains the proof that a complete SQL statement has one placeholder for each of its parameters, whatever
the names in it are, and that it groups by every grouping column once.
-/

namespace Criteria

section FirstAppearance

variable {α β : Type} [DecidableEq α] [DecidableEq β]

/--
What it means that a list has the items of another one, each of them once and in the order in which they first appear.
-/
structure AreDistinctOf (different items : List α) : Prop where
  mem_iff : ∀ a, a ∈ different ↔ a ∈ items
  order : different.Pairwise fun a b => items.idxOf a < items.idxOf b

theorem eraseDups_append_singleton (items : List α) (a : α) :
    (items ++ [a]).eraseDups = if a ∈ items then items.eraseDups else items.eraseDups ++ [a] := by
  rw [List.eraseDups_append]
  split
  next h => simp [List.removeAll, h]
  next h => simp [List.removeAll, h, List.eraseDups_cons]

theorem areDistinctOf_eraseDups (items : List α) : AreDistinctOf items.eraseDups items := by
  refine ⟨fun _ => List.mem_eraseDups, ?_⟩
  induction items using List.reverseRecOn with
  | nil => exact .nil
  | append_singleton items a ih =>
    have hold : items.eraseDups.Pairwise fun b c => (items ++ [a]).idxOf b < (items ++ [a]).idxOf c := by
      refine ih.imp_of_mem ?_
      intro b c hb hc hlt
      rw [List.mem_eraseDups] at hb hc
      rwa [List.idxOf_append_of_mem hb, List.idxOf_append_of_mem hc]
    rw [eraseDups_append_singleton]
    split
    next => exact hold
    next hnew =>
      -- A new item first appears at the very end, behind all the others.
      rw [List.pairwise_append]
      refine ⟨hold, List.pairwise_singleton _ a, ?_⟩
      intro b hb c hc
      rw [List.mem_eraseDups] at hb
      rw [List.mem_singleton] at hc
      have hlt := List.idxOf_lt_length_of_mem hb
      rw [hc, List.idxOf_append_of_mem hb, List.idxOf_append_of_notMem hnew]
      omega

theorem eraseDups_map {f : α → β} (hf : Function.Injective f) (items : List α) :
    (items.map f).eraseDups = items.eraseDups.map f := by
  induction items using List.reverseRecOn with
  | nil => rfl
  | append_singleton items a ih =>
    rw [List.map_append, List.map_singleton, eraseDups_append_singleton, eraseDups_append_singleton, ih]
    by_cases h : a ∈ items
    · rw [if_pos h, if_pos (List.mem_map_of_mem h)]
    · rw [← List.mem_map_of_injective hf] at h
      rw [if_neg h, if_neg (mt List.mem_map_of_mem h), List.map_append, List.map_singleton]

theorem foldl_eq_eraseDups (items : List α) :
    items.foldl (fun different a => if different.contains a then different else different ++ [a]) [] =
      items.eraseDups := by
  induction items using List.reverseRecOn with
  | nil => rfl
  | append_singleton items a ih =>
    rw [List.foldl_concat, ih, eraseDups_append_singleton]
    simp only [List.contains_iff_mem, List.mem_eraseDups]

end FirstAppearance

namespace Sql

theorem quoteIdentifier_injective : Function.Injective quoteIdentifier := by
  intro name name' h
  rw [← String.toList_inj, Reader.toList_quoteIdentifier, Reader.toList_quoteIdentifier, List.cons.injEq] at h
  have hname := Reader.identifier?_escape name.toList [] (by simp)
  have hname' := Reader.identifier?_escape name'.toList [] (by simp)
  rw [h.2, hname'] at hname
  simpa [String.toList_inj, eq_comm] using hname

/--
What it means that a text has a number of placeholders and closes all double quotes that it opens.
-/
def HasPlaceholders (text : String) (count : Nat) : Prop :=
  ∀ rest, placeholderCount (text.toList ++ rest) = count + placeholderCount rest

abbrev IsPlain (text : String) : Prop :=
  HasPlaceholders text 0

section Placeholders

variable {a b text separator : String} {count count' : Nat}

theorem HasPlaceholders.placeholderCount_eq (h : HasPlaceholders text count) :
    placeholderCount text.toList = count := by
  have hcount := h []
  rwa [List.append_nil] at hcount

theorem HasPlaceholders.append (ha : HasPlaceholders a count) (hb : HasPlaceholders b count') :
    HasPlaceholders (a ++ b) (count + count') := by
  intro rest
  rw [String.toList_append, List.append_assoc, ha, hb, Nat.add_assoc]

theorem IsPlain.append (ha : IsPlain a) (hb : HasPlaceholders b count) : HasPlaceholders (a ++ b) count := by
  have h := HasPlaceholders.append ha hb
  rwa [Nat.zero_add] at h

theorem isPlain_of_not_mem (hmark : '?' ∉ text.toList) (hquote : '"' ∉ text.toList) : IsPlain text := by
  intro rest
  rw [placeholderCount_append hquote, List.count_eq_zero.mpr hmark]

theorem isPlain_empty : IsPlain "" :=
  isPlain_of_not_mem (by decide) (by decide)

theorem isPlain_quoteIdentifier (name : String) : IsPlain (quoteIdentifier name) := by
  intro rest
  rw [placeholderCount_quoteIdentifier, Nat.zero_add]

theorem hasPlaceholders_intercalate {texts : List String} {counts : List Nat} (hseparator : IsPlain separator)
    (h : List.Forall₂ HasPlaceholders texts counts) :
    HasPlaceholders (separator.intercalate texts) counts.sum := by
  induction h with
  | nil => exact isPlain_empty
  | @cons text count texts counts hfirst hothers ih =>
    cases hothers with
    | nil => simpa using hfirst
    | cons hnext hothers =>
      rw [String.intercalate_cons_cons, List.sum_cons]
      exact (hfirst.append hseparator).append ih

theorem isPlain_intercalate {texts : List String} (hseparator : IsPlain separator)
    (h : ∀ text ∈ texts, IsPlain text) : IsPlain (separator.intercalate texts) := by
  have hcounts : List.Forall₂ HasPlaceholders texts (texts.map fun _ => 0) := by
    rw [List.forall₂_map_right_iff, List.forall₂_same]
    exact h
  have hplain := hasPlaceholders_intercalate hseparator hcounts
  rwa [List.map_const', List.sum_replicate_nat, Nat.mul_zero] at hplain

theorem isPlain_toString (n : Nat) : IsPlain (toString n) := by
  have hdigits : ∀ c ∈ (toString n).toList, c.isDigit := by
    intro c hc
    rw [Nat.toString_eq_repr, Nat.toList_repr] at hc
    exact Text.isDigit_of_mem_toDigits c hc
  apply isPlain_of_not_mem
  · intro hmark
    exact absurd (hdigits _ hmark) (by decide)
  · intro hquote
    exact absurd (hdigits _ hquote) (by decide)

end Placeholders

variable {R : Type}

section Clause

variable {statement : Statement}

def SelectedAggregate.IsPlain (aggregate : SelectedAggregate) : Prop :=
  Sql.IsPlain aggregate.expression ∧ ∀ column ∈ aggregate.groupBy, Sql.IsPlain column

theorem isPlain_selectAggregate (columns : ColumnMap) (aggregate : Aggregate R) :
    (selectAggregate columns aggregate).IsPlain := by
  constructor
  · have hfunction : IsPlain (functionName aggregate.function) := by
      apply isPlain_of_not_mem <;> cases aggregate.function <;> decide
    have hopen : IsPlain "(" := isPlain_of_not_mem (by decide) (by decide)
    have hclose : IsPlain ")" := isPlain_of_not_mem (by decide) (by decide)
    exact ((hfunction.append hopen).append (isPlain_quoteIdentifier _)).append hclose
  · intro column hcolumn
    rcases List.mem_map.mp hcolumn with ⟨field, _, rfl⟩
    exact isPlain_quoteIdentifier _

theorem isPlain_orderKey {expression : String} (h : IsPlain expression) (direction : Direction) :
    IsPlain (orderKey expression direction) := by
  have hblank : IsPlain " " := isPlain_of_not_mem (by decide) (by decide)
  have hkeyword : IsPlain (directionKeyword direction) := by
    apply isPlain_of_not_mem <;> cases direction <;> decide
  exact (h.append hblank).append hkeyword

theorem isPlain_separator : IsPlain ", " :=
  isPlain_of_not_mem (by decide) (by decide)

theorem isPlain_clause {keys : OrderKeys} (h : ∀ key ∈ keys, IsPlain key) : IsPlain keys.clause := by
  unfold OrderKeys.clause
  split
  next => exact isPlain_empty
  next =>
    have hkeyword : IsPlain "ORDER BY " := isPlain_of_not_mem (by decide) (by decide)
    exact hkeyword.append (isPlain_intercalate isPlain_separator h)

theorem groupColumns_eq (statement : Statement) :
    statement.groupColumns = (statement.aggregates.flatMap SelectedAggregate.groupBy).eraseDups :=
  foldl_eq_eraseDups _

theorem isPlain_groupColumns (h : ∀ aggregate ∈ statement.aggregates, aggregate.IsPlain) :
    ∀ column ∈ statement.groupColumns, IsPlain column := by
  intro column hcolumn
  rw [groupColumns_eq, List.mem_eraseDups, List.mem_flatMap] at hcolumn
  rcases hcolumn with ⟨aggregate, haggregate, hcolumn⟩
  exact (h aggregate haggregate).2 column hcolumn

theorem isPlain_selected (h : ∀ aggregate ∈ statement.aggregates, aggregate.IsPlain) :
    IsPlain statement.selected := by
  unfold Statement.selected
  split
  next => exact isPlain_of_not_mem (by decide) (by decide)
  next =>
    apply isPlain_intercalate isPlain_separator
    rw [List.forall_mem_append, List.forall_mem_map]
    refine ⟨isPlain_groupColumns h, ?_⟩
    intro aggregate haggregate
    exact (h aggregate haggregate).1

theorem isPlain_groupClause (h : ∀ aggregate ∈ statement.aggregates, aggregate.IsPlain) :
    IsPlain statement.groupClause := by
  unfold Statement.groupClause
  split
  next => exact isPlain_empty
  next =>
    have hkeyword : IsPlain " GROUP BY " := isPlain_of_not_mem (by decide) (by decide)
    exact hkeyword.append (isPlain_intercalate isPlain_separator (isPlain_groupColumns h))

theorem isPlain_aggregateOrder (h : ∀ aggregate ∈ statement.aggregates, aggregate.IsPlain) :
    ∀ key ∈ statement.aggregateOrder, IsPlain key := by
  intro key hkey
  rcases List.mem_filterMap.mp hkey with ⟨aggregate, haggregate, hkey⟩
  rcases Option.map_eq_some_iff.mp hkey with ⟨direction, _, rfl⟩
  exact isPlain_orderKey (h aggregate haggregate).1 direction

theorem isPlain_orderClause (h : ∀ aggregate ∈ statement.aggregates, aggregate.IsPlain)
    {sort : Option OrderKeys} (hsort : ∀ keys ∈ sort, ∀ key ∈ keys, IsPlain key) :
    IsPlain (statement.orderClause sort) := by
  have hkeys : ∀ key ∈ if statement.aggregates.isEmpty then sort.getD [] else statement.aggregateOrder,
      IsPlain key := by
    split
    next =>
      cases sort with
      | none => simp
      | some keys => exact hsort keys rfl
    next => exact isPlain_aggregateOrder h
  unfold Statement.orderClause
  dsimp only
  generalize (if statement.aggregates.isEmpty then sort.getD [] else statement.aggregateOrder) = keys at hkeys ⊢
  split
  next => exact isPlain_empty
  next =>
    have hblank : IsPlain " " := isPlain_of_not_mem (by decide) (by decide)
    exact hblank.append (isPlain_clause hkeys)

theorem isPlain_pageClause (statement : Statement) : IsPlain statement.pageClause := by
  have hlimit : IsPlain " LIMIT " := isPlain_of_not_mem (by decide) (by decide)
  have hoffset : IsPlain " OFFSET " := isPlain_of_not_mem (by decide) (by decide)
  unfold Statement.pageClause
  split
  next => exact isPlain_empty
  next page _ =>
    apply IsPlain.append
    · split
      next => exact isPlain_empty
      next limit _ => exact hlimit.append (isPlain_toString _)
    · split
      next => exact isPlain_empty
      next => exact hoffset.append (isPlain_toString _)

def Statement.conditions (statement : Statement) : List String :=
  statement.scope.map (fun fragment => "(" ++ fragment ++ ")") ++
    statement.predicate.toList.map Predicate.toText

theorem whereCondition_eq (statement : Statement) :
    statement.whereCondition =
      if statement.conditions.isEmpty then none else some (" AND ".intercalate statement.conditions) := rfl

theorem whereCondition_eq_none_iff :
    statement.whereCondition = none ↔ statement.scope = [] ∧ statement.predicate = none := by
  rw [whereCondition_eq]
  simp [Statement.conditions]

theorem eq_of_mem_whereCondition {text : String} (h : text ∈ statement.whereCondition) :
    text = " AND ".intercalate statement.conditions := by
  rw [whereCondition_eq] at h
  split at h
  next => cases h
  next => exact (Option.some.inj h).symm

theorem hasPlaceholders_conditions
    (hscope : ∀ fragment ∈ statement.scope, '?' ∉ fragment.toList ∧ '"' ∉ fragment.toList)
    (hpredicate : ∀ predicate ∈ statement.predicate, predicate.IsReadable) :
    HasPlaceholders (" AND ".intercalate statement.conditions) statement.parameters.length := by
  have hparenthesized : List.Forall₂ HasPlaceholders
      (statement.scope.map fun fragment => "(" ++ fragment ++ ")") (statement.scope.map fun _ => 0) := by
    rw [List.forall₂_map_left_iff, List.forall₂_map_right_iff, List.forall₂_same]
    intro fragment hfragment
    have hopen : IsPlain "(" := isPlain_of_not_mem (by decide) (by decide)
    have hclose : IsPlain ")" := isPlain_of_not_mem (by decide) (by decide)
    have hplain := isPlain_of_not_mem (hscope fragment hfragment).1 (hscope fragment hfragment).2
    exact (hopen.append hplain).append hclose
  have hwritten : List.Forall₂ HasPlaceholders (statement.predicate.toList.map Predicate.toText)
      (statement.predicate.toList.map fun predicate => predicate.parameters.length) := by
    rw [List.forall₂_map_left_iff, List.forall₂_map_right_iff, List.forall₂_same]
    intro predicate hmem
    exact placeholderCount_toText_append (hpredicate predicate (Option.mem_toList.mp hmem))
  have hsum : ((statement.scope.map fun _ => 0) ++
      statement.predicate.toList.map fun (predicate : Predicate) => predicate.parameters.length).sum =
        statement.parameters.length := by
    unfold Statement.parameters
    cases statement.predicate <;> simp
  have hconjunction : IsPlain " AND " := isPlain_of_not_mem (by decide) (by decide)
  rw [← hsum]
  exact hasPlaceholders_intercalate hconjunction (List.rel_append hparenthesized hwritten)

theorem hasPlaceholders_whereClause
    (hscope : ∀ fragment ∈ statement.scope, '?' ∉ fragment.toList ∧ '"' ∉ fragment.toList)
    (hpredicate : ∀ predicate ∈ statement.predicate, predicate.IsReadable) :
    HasPlaceholders (statement.whereCondition.elim "" (" WHERE " ++ ·)) statement.parameters.length := by
  have hconditions := hasPlaceholders_conditions hscope hpredicate
  rw [whereCondition_eq]
  split
  next hnil =>
    rw [List.isEmpty_iff] at hnil
    rwa [hnil] at hconditions
  next =>
    have hkeyword : IsPlain " WHERE " := isPlain_of_not_mem (by decide) (by decide)
    exact hkeyword.append hconditions

theorem hasPlaceholders_toSelect
    (hscope : ∀ fragment ∈ statement.scope, '?' ∉ fragment.toList ∧ '"' ∉ fragment.toList)
    (hpredicate : ∀ predicate ∈ statement.predicate, predicate.IsReadable)
    (haggregates : ∀ aggregate ∈ statement.aggregates, aggregate.IsPlain)
    {sort : Option OrderKeys} (hsort : ∀ keys ∈ sort, ∀ key ∈ keys, IsPlain key) (table : String) :
    HasPlaceholders (statement.toSelect table sort) statement.parameters.length := by
  have hselect : IsPlain "SELECT " := isPlain_of_not_mem (by decide) (by decide)
  have hfrom : IsPlain " FROM " := isPlain_of_not_mem (by decide) (by decide)
  have hbegin : IsPlain ("SELECT " ++ statement.selected ++ " FROM " ++ quoteIdentifier table) :=
    ((hselect.append (isPlain_selected haggregates)).append hfrom).append (isPlain_quoteIdentifier table)
  have hwhere := hbegin.append (hasPlaceholders_whereClause hscope hpredicate)
  have hgroup := hwhere.append (isPlain_groupClause haggregates)
  have horder := hgroup.append (isPlain_orderClause haggregates hsort)
  exact horder.append (isPlain_pageClause statement)

end Clause

def groupingNames (columns : ColumnMap) (aggregates : AggregateList R) : List String :=
  aggregates.flatMap fun aggregate => aggregate.groupBy.map fun field => columns.column field.name

def Statement.ofQuery (columns : ColumnMap) (query : Query R (List String)) (mode : QueryMode) :
    Statement where
  scope := query.scope
  predicate := columnTree columns query.condition
  aggregates := (query.aggregatesIn mode).map (selectAggregate columns)
  page := query.pageIn mode

section Query

variable {columns : ColumnMap} {query : Query R (List String)}

theorem compile_query_eq_ok (columns : ColumnMap) (query : Query R (List String)) (mode : QueryMode) :
    query.compile (backend R columns) mode = .ok (Statement.ofQuery columns query mode) := by
  have haggregates : (query.aggregatesIn mode).mapM (backend R columns).aggregate =
      .ok ((query.aggregatesIn mode).map (selectAggregate columns)) :=
    List.mapM_pure
  unfold Query.compile
  rw [compile_eq_ok, haggregates]
  rfl

theorem groupColumns_ofQuery (columns : ColumnMap) (query : Query R (List String)) (mode : QueryMode) :
    (Statement.ofQuery columns query mode).groupColumns =
      (groupingNames columns (query.aggregatesIn mode)).eraseDups.map quoteIdentifier := by
  have hquoted : (Statement.ofQuery columns query mode).aggregates.flatMap SelectedAggregate.groupBy =
      (groupingNames columns (query.aggregatesIn mode)).map quoteIdentifier := by
    unfold Statement.ofQuery groupingNames
    rw [List.flatMap_map, List.map_flatMap]
    simp only [selectAggregate, List.map_map, Function.comp_def]
  rw [groupColumns_eq, hquoted, eraseDups_map quoteIdentifier_injective]

theorem hasPlaceholders_toSelect_ofQuery
    (hscope : ∀ fragment ∈ query.scope, '?' ∉ fragment.toList ∧ '"' ∉ fragment.toList)
    (hvalid : query.condition.IsValid) (mode : QueryMode) (table : String) (sort : Option (SortOrder R)) :
    HasPlaceholders ((Statement.ofQuery columns query mode).toSelect table (sort.map (orderKeys columns)))
      (Statement.ofQuery columns query mode).parameters.length := by
  apply hasPlaceholders_toSelect hscope (isReadable_of_mem_columnTree hvalid)
  · intro aggregate haggregate
    rcases List.mem_map.mp haggregate with ⟨aggregate, _, rfl⟩
    exact isPlain_selectAggregate columns aggregate
  · intro keys hkeys key hkey
    rcases Option.map_eq_some_iff.mp hkeys with ⟨sort, _, rfl⟩
    rcases List.mem_map.mp hkey with ⟨key, _, rfl⟩
    exact isPlain_orderKey (isPlain_quoteIdentifier _) key.direction

/--
What it means that a statement asks for what a query asks for in a mode: the rows that satisfy a condition, grouped by
every grouping column once.
-/
structure Statement.Answers (columns : ColumnMap) (query : Query R (List String)) (mode : QueryMode)
    (condition : Option String) (statement : Statement) : Prop where
  whereCondition : statement.whereCondition = condition
  placeholders : ∀ table (sort : Option (SortOrder R)),
    placeholderCount (statement.toSelect table (sort.map (orderKeys columns))).toList = statement.parameters.length
  text : ∃ names, AreDistinctOf names (groupingNames columns (query.aggregatesIn mode)) ∧
    ∀ table (sort : Option (SortOrder R)), statement.toSelect table (sort.map (orderKeys columns)) =
      "SELECT " ++
        (if (query.aggregatesIn mode).isEmpty then "*"
          else ", ".intercalate (names.map quoteIdentifier ++
            (query.aggregatesIn mode).map fun aggregate => (selectAggregate columns aggregate).expression)) ++
        " FROM " ++ quoteIdentifier table ++ condition.elim "" (" WHERE " ++ ·) ++
        (if names.isEmpty then "" else " GROUP BY " ++ ", ".intercalate (names.map quoteIdentifier)) ++
        statement.orderClause (sort.map (orderKeys columns)) ++ statement.pageClause

theorem answers_ofQuery (hscope : ∀ fragment ∈ query.scope, '?' ∉ fragment.toList ∧ '"' ∉ fragment.toList)
    (hvalid : query.condition.IsValid) (mode : QueryMode) :
    (Statement.ofQuery columns query mode).Answers columns query mode
      (Statement.ofQuery columns query .rows).whereCondition := by
  refine ⟨rfl, ?_, _, areDistinctOf_eraseDups _, ?_⟩
  · intro table sort
    exact (hasPlaceholders_toSelect_ofQuery hscope hvalid mode table sort).placeholderCount_eq
  · intro table sort
    have haggregates : (Statement.ofQuery columns query mode).aggregates =
        (query.aggregatesIn mode).map (selectAggregate columns) := rfl
    unfold Statement.toSelect Statement.selected Statement.groupClause
    rw [groupColumns_ofQuery, haggregates, List.map_map, List.isEmpty_map, List.isEmpty_map]
    rfl

/--
A query is compiled to a statement with one placeholder for each of its parameters, even if there are question marks or
quotes in the names of tables and columns. The condition of the statement is the same in both modes. It consists of the
scope, each part of it in parentheses, and of the written condition of the query, in which every group is in parentheses
of its own. Aggregates are grouped by every grouping column once, and the same columns are selected before them.
-/
theorem exists_compile_eq_ok_and_answers (columns : ColumnMap) (query : Query R (List String))
    (hscope : ∀ fragment ∈ query.scope, '?' ∉ fragment.toList ∧ '"' ∉ fragment.toList)
    (hleaves : ∀ condition ∈ query.conditions, ∀ leaf ∈ condition.atoms,
      Leaf.make leaf.field leaf.operator leaf.operands = .ok leaf) :
    ∃ (predicate : Option Predicate) (condition : Option String),
      query.condition.compile (backend R columns) = .ok predicate ∧
      (condition = none ↔ query.scope = [] ∧ predicate = none) ∧
      (∀ text ∈ condition, text = " AND ".intercalate
        (query.scope.map (fun fragment => "(" ++ fragment ++ ")") ++ predicate.toList.map Predicate.toText)) ∧
      (∀ written ∈ predicate, written.IsSeparated) ∧
      ∀ mode, ∃ statement, query.compile (backend R columns) mode = .ok statement ∧
        statement.Answers columns query mode condition := by
  have hvalid : query.condition.IsValid := by
    apply Condition.isValid_group_iff.mpr
    intro condition hcondition
    exact Condition.isValid_iff_make.mpr (hleaves condition hcondition)
  -- Only the aggregates and the page depend on the mode, so the condition for the rows is that for the aggregates too.
  refine ⟨columnTree columns query.condition, (Statement.ofQuery columns query .rows).whereCondition,
    compile_eq_ok columns query.condition, ?_, ?_, ?_, ?_⟩
  · rw [whereCondition_eq_none_iff]
    rfl
  · intro text htext
    exact eq_of_mem_whereCondition htext
  · intro written _
    exact written.isSeparated
  · intro mode
    exact ⟨_, compile_query_eq_ok columns query mode, answers_ofQuery hscope hvalid mode⟩

theorem exists_compile_eq_ok_and_answers_books :
    let genre : Field (Option Value × Option Value) := { name := "genre?", type := .string, read := Prod.fst }
    let year : Field (Option Value × Option Value) := { name := "year", type := .number, read := Prod.snd }
    let columns : ColumnMap := [("year", "year\" = ? OR \"year")]
    let query : Query (Option Value × Option Value) (List String) :=
      { scope := ["archived = FALSE"]
        conditions := [.group .or
          [.atom ⟨genre, .isNull, []⟩, .atom ⟨genre, .isIn, [.string "mystery", .string "poetry"]⟩]]
        aggregates := some
          [{ function := .max, field := year, groupBy := [genre], order := some .ascending },
            { function := .count, field := genre, groupBy := [year, genre] }]
        page := some ⟨20, some 10⟩ }
    (∀ fragment ∈ query.scope, '?' ∉ fragment.toList ∧ '"' ∉ fragment.toList) ∧
      (∀ condition ∈ query.conditions, ∀ leaf ∈ condition.atoms,
        Leaf.make leaf.field leaf.operator leaf.operands = .ok leaf) ∧
      ∃ (predicate : Option Predicate) (condition : Option String),
        query.condition.compile (backend _ columns) = .ok predicate ∧
        (condition = none ↔ query.scope = [] ∧ predicate = none) ∧
        (∀ text ∈ condition, text = " AND ".intercalate
          (query.scope.map (fun fragment => "(" ++ fragment ++ ")") ++ predicate.toList.map Predicate.toText)) ∧
        (∀ written ∈ predicate, written.IsSeparated) ∧
        ∀ mode, ∃ statement, query.compile (backend _ columns) mode = .ok statement ∧
          statement.Answers columns query mode condition := by
  intro genre year columns query
  have hscope : ∀ fragment ∈ query.scope, '?' ∉ fragment.toList ∧ '"' ∉ fragment.toList := by
    rw [List.forall_mem_singleton]
    decide
  have hleaves : ∀ condition ∈ query.conditions, ∀ leaf ∈ condition.atoms,
      Leaf.make leaf.field leaf.operator leaf.operands = .ok leaf := by
    simp only [query, List.forall_mem_cons, Formula.atoms_group, Formula.atoms_atom,
      List.flatMap_cons, List.flatMap_nil, List.cons_append, List.nil_append]
    exact ⟨⟨rfl, rfl, by simp⟩, by simp⟩
  exact ⟨hscope, hleaves, exists_compile_eq_ok_and_answers columns query hscope hleaves⟩

end Query

end Sql

end Criteria
