import Criteria.Memory.Aggregation
import Criteria.Proofs.Value
import Mathlib.Algebra.GroupWithZero.Nat
import Mathlib.Data.List.Induction
import Mathlib.Data.List.Pairwise

/-!
This module contains the proof that the groups of an aggregate partition the records: every record belongs to exactly
one group, and the value of a group is computed of the values of its records.
-/

namespace Criteria

section FirstAppearance

variable {α : Type} {same : α → α → Bool} {items : List α}

theorem eraseDupsBy_append_singleton (same : α → α → Bool) (items : List α) (a : α) :
    (items ++ [a]).eraseDupsBy same =
      if (items.eraseDupsBy same).any (same a) then items.eraseDupsBy same
      else items.eraseDupsBy same ++ [a] := by
  suffices h : ∀ seen, List.eraseDupsBy.loop same (items ++ [a]) seen =
      if (List.eraseDupsBy.loop same items seen).any (same a) then
        List.eraseDupsBy.loop same items seen
      else List.eraseDupsBy.loop same items seen ++ [a] from h []
  induction items with
  | nil =>
    intro seen
    rw [List.nil_append, List.eraseDupsBy.loop, List.eraseDupsBy.loop, List.any_reverse]
    cases seen.any (same a) with
    | true => rfl
    | false => exact List.reverse_cons
  | cons b items ih =>
    intro seen
    rw [List.cons_append, List.eraseDupsBy.loop, List.eraseDupsBy.loop]
    cases seen.any (same b) with
    | true => exact ih seen
    | false => exact ih (b :: seen)

theorem pairwise_eraseDupsBy (hcomm : ∀ a b, same a b = same b a) (items : List α) :
    (items.eraseDupsBy same).Pairwise fun a b => ¬same a b := by
  induction items using List.reverseRecOn with
  | nil => exact .nil
  | append_singleton items a ih =>
    rw [eraseDupsBy_append_singleton]
    split
    next => exact ih
    next hnew =>
      rw [Bool.not_eq_true, List.any_eq_false] at hnew
      rw [List.pairwise_append]
      refine ⟨ih, List.pairwise_singleton _ a, ?_⟩
      intro b hb c hc
      rw [List.mem_singleton] at hc
      rw [hc, hcomm]
      exact hnew b hb

theorem exists_mem_eraseDupsBy (hcomm : ∀ a b, same a b = same b a)
    (hself : ∀ a ∈ items, same a a) : ∀ a ∈ items, ∃ b ∈ items.eraseDupsBy same, same b a := by
  induction items using List.reverseRecOn with
  | nil => simp
  | append_singleton items a ih =>
    rw [List.forall_mem_append, List.forall_mem_singleton] at hself ⊢
    rw [eraseDupsBy_append_singleton]
    split
    next hold =>
      rw [List.any_eq_true] at hold
      rcases hold with ⟨b, hb, hsame⟩
      rw [hcomm] at hsame
      exact ⟨ih hself.1, b, hb, hsame⟩
    next =>
      constructor
      · intro b hb
        rcases ih hself.1 b hb with ⟨c, hc, hsame⟩
        exact ⟨c, List.mem_append_left _ hc, hsame⟩
      · exact ⟨a, by simp, hself.2⟩

end FirstAppearance

namespace Aggregate

section Key

variable {a b c : GroupKey}

def sameCell (x y : Option Value) : Bool :=
  match x, y with
  | none, none => true
  | some x, some y => x.same y
  | _, _ => false

theorem sameKey_cons (x y : Option Value) (a b : GroupKey) :
    sameKey (x :: a) (y :: b) = (sameCell x y && sameKey a b) := rfl

theorem sameKey_self (h : ∀ x ∈ a, ∀ value ∈ x, value.isNaN = false) : sameKey a a := by
  induction a with
  | nil => rfl
  | cons x a ih =>
    rw [List.forall_mem_cons] at h
    rw [sameKey_cons, ih h.2, Bool.and_true]
    cases x with
    | none => rfl
    | some x => exact Value.same_self (h.1 x rfl)

theorem sameCell_comm (x y : Option Value) : sameCell x y = sameCell y x := by
  cases x with
  | none => cases y <;> rfl
  | some x =>
    cases y with
    | none => rfl
    | some y => exact Value.same_comm x y

theorem sameKey_comm (a b : GroupKey) : sameKey a b = sameKey b a := by
  induction a generalizing b with
  | nil => cases b <;> rfl
  | cons x a ih =>
    cases b with
    | nil => rfl
    | cons y b => rw [sameKey_cons, sameKey_cons, ih, sameCell_comm]

theorem sameCell_trans {x y z : Option Value} (hxy : sameCell x y) (hyz : sameCell y z) :
    sameCell x z := by
  cases x with
  | none =>
    cases y with
    | none => exact hyz
    | some y => cases hxy
  | some x =>
    cases y with
    | none => cases hxy
    | some y =>
      cases z with
      | none => cases hyz
      | some z => exact Value.same_trans hxy hyz

theorem sameKey_trans (hab : sameKey a b) (hbc : sameKey b c) : sameKey a c := by
  induction a generalizing b c with
  | nil =>
    cases b with
    | nil => exact hbc
    | cons y b => cases hab
  | cons x a ih =>
    cases b with
    | nil => cases hab
    | cons y b =>
      cases c with
      | nil => cases hbc
      | cons z c =>
        rw [sameKey_cons, Bool.and_eq_true] at *
        exact ⟨sameCell_trans hab.1 hbc.1, ih hab.2 hbc.2⟩

end Key

section Groups

variable {R : Type} {aggregate : Aggregate R} {records : List R}

def valuesOf (aggregate : Aggregate R) (records : List R) (key : GroupKey) : List Value :=
  (records.filter fun record => sameKey key (aggregate.keyOf record)).filterMap aggregate.field.read

def keysOf (aggregate : Aggregate R) (records : List R) : List GroupKey :=
  (records.map aggregate.keyOf).eraseDupsBy sameKey

/--
Whether the key of every record is the same as itself, which it is unless a NaN is grouped by.
-/
def KeysReflexive (aggregate : Aggregate R) (records : List R) : Prop :=
  ∀ record ∈ records, sameKey (aggregate.keyOf record) (aggregate.keyOf record)

theorem keysOf_append (aggregate : Aggregate R) (records : List R) (record : R) :
    aggregate.keysOf (records ++ [record]) =
      if (aggregate.keysOf records).any (sameKey (aggregate.keyOf record)) then
        aggregate.keysOf records
      else aggregate.keysOf records ++ [aggregate.keyOf record] := by
  unfold keysOf
  rw [List.map_append, List.map_singleton, eraseDupsBy_append_singleton]

theorem pairwise_keysOf (aggregate : Aggregate R) (records : List R) :
    (aggregate.keysOf records).Pairwise fun a b => ¬sameKey a b :=
  pairwise_eraseDupsBy sameKey_comm _

theorem exists_mem_keysOf (hself : aggregate.KeysReflexive records) :
    ∀ record ∈ records, ∃ key ∈ aggregate.keysOf records, sameKey key (aggregate.keyOf record) := by
  intro record hrecord
  apply exists_mem_eraseDupsBy sameKey_comm
  · rw [List.forall_mem_map]
    exact hself
  · exact List.mem_map_of_mem hrecord

theorem valuesOf_append (aggregate : Aggregate R) (records : List R) (record : R) (key : GroupKey) :
    aggregate.valuesOf (records ++ [record]) key =
      if sameKey key (aggregate.keyOf record) then
        aggregate.valuesOf records key ++ (aggregate.field.read record).toList
      else aggregate.valuesOf records key := by
  unfold valuesOf
  rw [List.filter_append, List.filterMap_append, List.filter_singleton]
  cases sameKey key (aggregate.keyOf record) with
  | true => cases hread : aggregate.field.read record <;> simp [hread]
  | false => simp

theorem valuesOf_eq_nil {key : GroupKey} (hself : aggregate.KeysReflexive records)
    (hnew : ∀ other ∈ aggregate.keysOf records, ¬sameKey key other) :
    aggregate.valuesOf records key = [] := by
  unfold valuesOf
  rw [List.filter_eq_nil_iff.mpr, List.filterMap_nil]
  intro record hrecord hsame
  rcases exists_mem_keysOf hself record hrecord with ⟨other, hother, hsame'⟩
  apply hnew other hother
  rw [sameKey_comm] at hsame'
  exact sameKey_trans hsame hsame'

theorem addToGroup_map {keys : List GroupKey}
    (hdistinct : keys.Pairwise fun a b => ¬sameKey a b)
    (values : GroupKey → List Value) (key : GroupKey) (value : Option Value) :
    addToGroup key value (keys.map fun other => (other, values other)) =
      (keys.map fun other =>
        (other, if sameKey other key then values other ++ value.toList else values other)) ++
      if keys.any (sameKey key) then [] else [(key, value.toList)] := by
  induction keys with
  | nil => rfl
  | cons other keys ih =>
    rw [List.pairwise_cons] at hdistinct
    rw [List.map_cons, List.map_cons, addToGroup, List.any_cons, sameKey_comm key other]
    cases hsame : sameKey other key with
    | true =>
      have hothers : ∀ another ∈ keys, ¬sameKey another key := by
        intro another hanother hsame'
        apply hdistinct.1 another hanother
        rw [sameKey_comm] at hsame'
        exact sameKey_trans hsame hsame'
      simp +contextual [hothers]
    | false => simp [ih hdistinct.2]

theorem foldl_addToGroup (hself : aggregate.KeysReflexive records) :
    records.foldl (fun groups record =>
        addToGroup (aggregate.keyOf record) (aggregate.field.read record) groups) [] =
      (aggregate.keysOf records).map fun key => (key, aggregate.valuesOf records key) := by
  induction records using List.reverseRecOn with
  | nil => rfl
  | append_singleton records record ih =>
    unfold KeysReflexive at *
    rw [List.forall_mem_append, List.forall_mem_singleton] at hself
    rw [List.foldl_append, List.foldl_cons, List.foldl_nil, ih hself.1, keysOf_append,
      addToGroup_map (pairwise_keysOf aggregate records)]
    simp only [← valuesOf_append]
    split
    next => exact List.append_nil _
    next hnew =>
      have hnil : aggregate.valuesOf records (aggregate.keyOf record) = [] := by
        apply valuesOf_eq_nil hself.1
        simpa using hnew
      rw [List.map_append, List.map_singleton, valuesOf_append, if_pos hself.2, hnil, List.nil_append]

def groupKeys (aggregate : Aggregate R) (records : List R) : List GroupKey :=
  if aggregate.groupBy.isEmpty then [[]] else aggregate.keysOf records

theorem keyOf_of_isEmpty (h : aggregate.groupBy.isEmpty) (record : R) : aggregate.keyOf record = [] := by
  unfold keyOf
  rw [List.isEmpty_iff.mp h, List.map_nil]

theorem keysOf_of_isEmpty (h : aggregate.groupBy.isEmpty) (records : List R) :
    aggregate.keysOf records = if records.isEmpty then [] else [[]] := by
  induction records using List.reverseRecOn with
  | nil => rfl
  | append_singleton records record ih =>
    rw [keysOf_append, keyOf_of_isEmpty h, ih]
    cases records <;> rfl

theorem groups_eq_map (hself : aggregate.KeysReflexive records) :
    aggregate.groups records =
      (aggregate.groupKeys records).map fun key => (key, aggregate.valuesOf records key) := by
  unfold groups groupKeys
  rw [foldl_addToGroup hself]
  cases hgroup : aggregate.groupBy.isEmpty with
  | false => simp
  | true =>
    rw [keysOf_of_isEmpty hgroup]
    cases records <;> rfl

theorem groups_of_isEmpty (h : aggregate.groupBy.isEmpty) (records : List R) :
    aggregate.groups records = [([], records.filterMap aggregate.field.read)] := by
  have hkey := keyOf_of_isEmpty h
  have hself : aggregate.KeysReflexive records := by
    intro record _
    rw [hkey]
    rfl
  rw [groups_eq_map hself]
  unfold groupKeys valuesOf
  rw [if_pos h, List.map_singleton, List.filter_eq_self.mpr]
  intro record _
  rw [hkey]
  rfl

theorem sum_length_addToGroup (key : GroupKey) (value : Option Value)
    (groups : List (GroupKey × List Value)) :
    ((addToGroup key value groups).map fun group => group.2.length).sum =
      (groups.map fun group => group.2.length).sum + value.toList.length := by
  induction groups with
  | nil => simp [addToGroup]
  | cons group groups ih =>
    unfold addToGroup
    split
    next => simp; omega
    next => simp [ih]; omega

theorem sum_length_groups (aggregate : Aggregate R) (records : List R) :
    ((aggregate.groups records).map fun group => group.2.length).sum =
      (records.filterMap aggregate.field.read).length := by
  have hfold : ((records.foldl (fun groups record =>
      addToGroup (aggregate.keyOf record) (aggregate.field.read record) groups) []).map
        fun group => group.2.length).sum = (records.filterMap aggregate.field.read).length := by
    induction records using List.reverseRecOn with
    | nil => rfl
    | append_singleton records record ih =>
      rw [List.foldl_append, List.foldl_cons, List.foldl_nil, sum_length_addToGroup, ih,
        List.filterMap_append, List.length_append]
      cases hread : aggregate.field.read record <;> simp [hread]
  cases hgroup : aggregate.groupBy.isEmpty with
  | true => simp [groups_of_isEmpty hgroup]
  | false =>
    unfold groups
    simpa [hgroup] using hfold

end Groups

section Rows

variable {R : Type} {aggregate : Aggregate R} {records : List R}

/--
What it means that the rows of an aggregate account for records: there is one row for each of the different keys, each
record belongs to exactly one of them, and the value of a row is computed of the values of its records.
-/
structure AccountsFor (aggregate : Aggregate R) (records : List R) (rows : List Row) : Prop where
  rows_eq : rows = (aggregate.groupKeys records).map fun key =>
    { function := aggregate.function
      field := aggregate.field.name
      group := key
      value := aggregate.function.compute (aggregate.valuesOf records key) }
  distinct : (rows.map Row.group).Pairwise fun a b => ¬sameKey a b
  exists_unique : ∀ record ∈ records,
    ∃! key, key ∈ rows.map Row.group ∧ sameKey key (aggregate.keyOf record)
  ungrouped : aggregate.groupBy = [] → rows.length = 1
  no_records : aggregate.groupBy ≠ [] → records = [] → rows = []
  counts : aggregate.function = .count → ∃ sizes : List Nat,
    rows.map Row.value = sizes.map (fun size => some (.number (.unsigned (UInt64.ofNat size)))) ∧
    ({ aggregate with groupBy := [] }.rows records).map Row.value =
      [some (.number (.unsigned (UInt64.ofNat sizes.sum)))] ∧
    sizes.sum ≤ records.length

structure IsArrangement (aggregate : Aggregate R) (unordered rows : List Row) : Prop where
  perm : rows.Perm unordered
  of_none : aggregate.order = none → rows = unordered
  of_some : ∀ direction, aggregate.order = some direction →
    Value.AreAlike (unordered.filterMap Row.value) →
      IsStablySorted (fun a b => direction.compareValues a.value b.value) unordered rows ∧
        rows.Pairwise fun a b => a.value = none → b.value = none

theorem keysReflexive_of_isNaN
    (h : ∀ record ∈ records, ∀ field ∈ aggregate.groupBy, ∀ value ∈ field.read record,
      value.isNaN = false) : aggregate.KeysReflexive records := by
  intro record hrecord
  apply sameKey_self
  unfold keyOf
  rw [List.forall_mem_map]
  exact h record hrecord

theorem map_group_unorderedRows (hself : aggregate.KeysReflexive records) :
    (aggregate.unorderedRows records).map Row.group = aggregate.groupKeys records := by
  unfold unorderedRows
  rw [groups_eq_map hself, List.map_map, List.map_map]
  exact List.map_id _

theorem pairwise_groupKeys (aggregate : Aggregate R) (records : List R) :
    (aggregate.groupKeys records).Pairwise fun a b => ¬sameKey a b := by
  unfold groupKeys
  split
  next => exact List.pairwise_singleton _ _
  next => exact pairwise_keysOf aggregate records

theorem exists_unique_groupKey (hself : aggregate.KeysReflexive records) :
    ∀ record ∈ records,
      ∃! key, key ∈ aggregate.groupKeys records ∧ sameKey key (aggregate.keyOf record) := by
  intro record hrecord
  have hexists : ∃ key ∈ aggregate.groupKeys records, sameKey key (aggregate.keyOf record) := by
    unfold groupKeys
    split
    next hgroup => exact ⟨[], by simp, by rw [keyOf_of_isEmpty hgroup]; rfl⟩
    next => exact exists_mem_keysOf hself record hrecord
  rcases hexists with ⟨key, hkey, hsame⟩
  refine ⟨key, ⟨hkey, hsame⟩, ?_⟩
  rintro other ⟨hother, hsame'⟩
  have : Std.Symm fun a b : GroupKey => ¬sameKey a b := by
    constructor
    intro a b hab
    rwa [sameKey_comm]
  by_contra hne
  rw [sameKey_comm] at hsame
  exact (pairwise_groupKeys aggregate records).forall hother hkey hne (sameKey_trans hsame' hsame)

theorem perm_rows (aggregate : Aggregate R) (records : List R) :
    (aggregate.rows records).Perm (aggregate.unorderedRows records) := by
  unfold rows
  cases aggregate.order with
  | none => exact .refl _
  | some direction => exact stableSort_perm _ _

theorem rows_of_isEmpty (h : aggregate.groupBy.isEmpty) (records : List R) :
    aggregate.rows records =
      [{ function := aggregate.function
         field := aggregate.field.name
         group := []
         value := aggregate.function.compute (records.filterMap aggregate.field.read) }] := by
  have hperm := perm_rows aggregate records
  unfold unorderedRows at hperm
  rw [groups_of_isEmpty h] at hperm
  exact hperm.eq_singleton

theorem accountsFor_unorderedRows (hself : aggregate.KeysReflexive records) :
    aggregate.AccountsFor records (aggregate.unorderedRows records) where
  rows_eq := by
    unfold unorderedRows
    rw [groups_eq_map hself, List.map_map]
    rfl
  distinct := by
    rw [map_group_unorderedRows hself]
    exact pairwise_groupKeys aggregate records
  exists_unique := by
    rw [map_group_unorderedRows hself]
    exact exists_unique_groupKey hself
  ungrouped := by
    intro hgroup
    unfold unorderedRows
    rw [groups_of_isEmpty (List.isEmpty_iff.mpr hgroup)]
    rfl
  no_records := by
    intro hgroup hrecords
    unfold unorderedRows
    rw [groups_eq_map hself, hrecords]
    unfold groupKeys
    rw [if_neg (by simpa using hgroup)]
    rfl
  counts := by
    intro hcount
    refine ⟨(aggregate.groups records).map fun group => group.2.length, ?_, ?_, ?_⟩
    · unfold unorderedRows
      rw [List.map_map, List.map_map, hcount]
      rfl
    · rw [rows_of_isEmpty rfl, sum_length_groups]
      dsimp only
      rw [hcount]
      rfl
    · rw [sum_length_groups]
      apply List.length_filterMap_le

theorem isArrangement_rows (aggregate : Aggregate R) (records : List R) :
    aggregate.IsArrangement (aggregate.unorderedRows records) (aggregate.rows records) where
  perm := perm_rows aggregate records
  of_none := by
    intro horder
    unfold rows
    rw [horder]
  of_some := by
    intro direction horder halike
    have horders : Orders (fun a b : Row => direction.compareValues a.value b.value)
        (aggregate.unorderedRows records) := by
      apply Orders.comap
      apply Direction.orders_compareValues
      rw [List.filterMap_map]
      exact halike
    unfold rows
    rw [horder]
    refine ⟨isStablySorted_stableSort horders, ?_⟩
    exact (pairwise_stableSort horders).imp Direction.eq_none_of_isLE_compareValues

/--
The rows of an aggregate account for all records as long as no NaN is grouped by, and they stand in the order that the
aggregate asks for.
-/
theorem accountsFor_and_isArrangement (aggregate : Aggregate R) (records : List R)
    (h : ∀ record ∈ records, ∀ field ∈ aggregate.groupBy, ∀ value ∈ field.read record,
      value.isNaN = false) :
    aggregate.AccountsFor records (aggregate.unorderedRows records) ∧
      aggregate.IsArrangement (aggregate.unorderedRows records) (aggregate.rows records) := by
  constructor
  · exact accountsFor_unorderedRows (keysReflexive_of_isNaN h)
  · exact isArrangement_rows aggregate records

theorem accountsFor_and_isArrangement_years :
    let genre : Field (Option Value × Option Value) := { name := "genre", type := .string, read := Prod.fst }
    let year : Field (Option Value × Option Value) := { name := "year", type := .number, read := Prod.snd }
    let aggregate : Aggregate (Option Value × Option Value) :=
      { function := .count, field := year, groupBy := [genre], order := some .descending }
    let records : List (Option Value × Option Value) :=
      [(some (.string "Essay"), none), (none, some (.number (.signed 1815))),
        (some (.string "Novel"), some (.number (.signed 1965))), (none, some (.number (.signed 1815)))]
    (∀ record ∈ records, ∀ field ∈ aggregate.groupBy, ∀ value ∈ field.read record,
      value.isNaN = false) ∧
      Value.AreAlike ((aggregate.unorderedRows records).filterMap Row.value) ∧
      aggregate.AccountsFor records (aggregate.unorderedRows records) ∧
      aggregate.IsArrangement (aggregate.unorderedRows records) (aggregate.rows records) := by
  intro genre year aggregate records
  have h : ∀ record ∈ records, ∀ field ∈ aggregate.groupBy, ∀ value ∈ field.read record,
      value.isNaN = false := by
    simp [records, aggregate, genre, Value.isNaN]
  have hvalues : (aggregate.unorderedRows records).filterMap Row.value =
      [.number (.unsigned 0), .number (.unsigned 2), .number (.unsigned 1)] := by
    rfl
  have halike : Value.AreAlike ((aggregate.unorderedRows records).filterMap Row.value) := by
    rw [hvalues]
    exact ⟨by simp [Value.type], .inl (by simp [Number.toInt?])⟩
  exact ⟨h, halike, accountsFor_and_isArrangement aggregate records h⟩

end Rows

end Aggregate

end Criteria
