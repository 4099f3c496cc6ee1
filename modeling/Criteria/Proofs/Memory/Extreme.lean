import Criteria.Proofs.Memory.Aggregation

/-!
This module contains the proof that the least and the greatest value are what they should be as long as the values are
alike: no other value comes before the one that is found, and of several such values it is the first.
-/

namespace Criteria

section Least

variable {α : Type} {compare : α → α → Ordering} {items : List α} {a b c : α}

theorem Orders.isLT_of_isLT_of_isLE (h : Orders compare items) (ha : a ∈ items) (hb : b ∈ items)
    (hc : c ∈ items) (hab : (compare a b).isLT) (hbc : (compare b c).isLE) : (compare a c).isLT := by
  by_contra hac
  have hca := h.isLE_of_not_isLT ha hc hac
  have hba := h.trans b hb c hc a ha hbc hca
  rw [h.swap a ha b hb, Ordering.isLT_iff_eq_lt.mp hab] at hba
  cases hba

def better (compare : α → α → Ordering) (best candidate : α) : α :=
  if (compare candidate best).isLT then candidate else best

structure IsFirstLeast (compare : α → α → Ordering) (items : List α) (a : α) : Prop where
  least : ∀ b ∈ items, ¬(compare b a).isLT
  first : ∃ before after, items = before ++ a :: after ∧ ∀ b ∈ before, (compare a b).isLT

theorem IsFirstLeast.mem (h : IsFirstLeast compare items a) : a ∈ items := by
  rcases h.first with ⟨before, after, hitems, _⟩
  rw [hitems]
  exact List.mem_append_cons_self

theorem isFirstLeast_singleton (h : Orders compare [a]) : IsFirstLeast compare [a] a where
  least := by
    rw [List.forall_mem_singleton, h.refl (List.mem_singleton_self a)]
    decide
  first := ⟨[], [], rfl, by simp⟩

theorem isFirstLeast_better (h : Orders compare (items ++ [b])) (ha : IsFirstLeast compare items a) :
    IsFirstLeast compare (items ++ [b]) (better compare a b) := by
  have hmem : ∀ c ∈ items, c ∈ items ++ [b] := fun c hc => List.mem_append_left [b] hc
  have hb : b ∈ items ++ [b] := by simp
  unfold better
  split
  next hlt =>
    constructor
    · rw [List.forall_mem_append, List.forall_mem_singleton]
      constructor
      · intro c hc hcb
        have hle : (compare b a).isLE := by
          rw [Ordering.isLT_iff_eq_lt.mp hlt]
          rfl
        exact ha.least c hc (h.isLT_of_isLT_of_isLE (hmem c hc) hb (hmem a ha.mem) hcb hle)
      · rw [h.refl hb]
        decide
    · refine ⟨items, [], rfl, ?_⟩
      intro c hc
      have hac := h.isLE_of_not_isLT (hmem c hc) (hmem a ha.mem) (ha.least c hc)
      exact h.isLT_of_isLT_of_isLE hb (hmem a ha.mem) (hmem c hc) hlt hac
  next hlt =>
    rcases ha.first with ⟨before, after, hitems, hbefore⟩
    constructor
    · rw [List.forall_mem_append, List.forall_mem_singleton]
      exact ⟨ha.least, hlt⟩
    · exact ⟨before, after ++ [b], by simp [hitems], hbefore⟩

theorem isFirstLeast_foldl_better (h : Orders compare (a :: items)) :
    IsFirstLeast compare (a :: items) (items.foldl (better compare) a) := by
  induction items using List.reverseRecOn with
  | nil => exact isFirstLeast_singleton h
  | append_singleton items b ih =>
    rw [List.foldl_append, List.foldl_cons, List.foldl_nil, ← List.cons_append] at *
    apply isFirstLeast_better h
    apply ih
    exact h.mono (List.subset_append_left _ _)

theorem IsFirstLeast.isEq_of_perm {others : List α} (h : Orders compare items) (ha : IsFirstLeast compare items a)
    (hb : IsFirstLeast compare others b) (hperm : others.Perm items) : compare b a = .eq := by
  have hmem : b ∈ items := hperm.mem_iff.mp hb.mem
  have hba := ha.least b hmem
  have hab := hb.least a (hperm.mem_iff.mpr ha.mem)
  rw [h.swap b hmem a ha.mem] at hab
  cases hcompare : compare b a <;> simp_all

end Least

namespace Direction

def Precedes (direction : Direction) (a b : Value) : Prop :=
  match direction with
  | ascending => a.compare b = some .lt
  | descending => a.compare b = some .gt

structure IsFirstOf (direction : Direction) (values : List Value) (value : Value) : Prop where
  unpreceded : ∀ other ∈ values, ¬direction.Precedes other value
  first : ∃ before after, values = before ++ value :: after ∧ ∀ earlier ∈ before, direction.Precedes value earlier

variable {direction : Direction} {values : List Value} {value : Value}

theorem isLT_apply_iff {a b : Value} :
    (direction.apply ((a.compare b).getD .eq)).isLT ↔ direction.Precedes a b := by
  unfold Precedes
  cases direction <;> cases a.compare b with
  | none => simp [apply]
  | some o => cases o <;> simp [apply]

theorem any_isLT_map_apply (direction : Direction) (o : Option Ordering) :
    (o.map direction.apply).any Ordering.isLT = (direction.apply (o.getD .eq)).isLT := by
  cases o with
  | none => cases direction <;> rfl
  | some o => rfl

theorem apply_eq_eq_iff {o : Ordering} : direction.apply o = .eq ↔ o = .eq := by
  cases direction <;> cases o <;> decide

theorem isFirstLeast_iff :
    IsFirstLeast (fun a b => direction.apply ((a.compare b).getD .eq)) values value ↔
      direction.IsFirstOf values value := by
  constructor
  · intro h
    rcases h with ⟨hleast, hfirst⟩
    simp only [isLT_apply_iff] at hleast hfirst
    exact ⟨hleast, hfirst⟩
  · intro h
    rcases h with ⟨hunpreceded, hfirst⟩
    simp only [← isLT_apply_iff] at hunpreceded hfirst
    exact ⟨hunpreceded, hfirst⟩

end Direction

namespace AggregateFunction

def extremum : Direction → AggregateFunction
  | .ascending => min
  | .descending => max

variable {direction : Direction} {values others : List Value}

theorem extreme?_cons (direction : Direction) (value : Value) (values : List Value) :
    extreme? direction (value :: values) =
      some (values.foldl (better fun a b => direction.apply ((a.compare b).getD .eq)) value) := by
  unfold extreme? better
  simp only [Direction.any_isLT_map_apply]

theorem compute_extremum (direction : Direction) (values : List Value) :
    compute (extremum direction) values = extreme? direction values := by
  cases direction <;> rfl

theorem exists_compute_extremum_eq_some (direction : Direction) (hne : values ≠ [])
    (h : Value.AreAlike values) :
    ∃ value, compute (extremum direction) values = some value ∧ direction.IsFirstOf values value := by
  cases values with
  | nil => exact absurd rfl hne
  | cons value values =>
    rw [compute_extremum, extreme?_cons]
    refine ⟨_, rfl, Direction.isFirstLeast_iff.mp ?_⟩
    exact isFirstLeast_foldl_better (Direction.orders_apply h direction)

theorem compare_eq_some_eq_of_perm {a b : Value} (h : Value.AreAlike values)
    (ha : direction.IsFirstOf values a) (hb : direction.IsFirstOf others b) (hperm : others.Perm values) :
    b.compare a = some .eq := by
  rw [← Direction.isFirstLeast_iff] at ha hb
  have heq := ha.isEq_of_perm (Direction.orders_apply h direction) hb hperm
  rcases h.exists_compare_eq_some (hperm.mem_iff.mp hb.mem) ha.mem with ⟨o, ho⟩
  rw [ho, Option.getD_some, Direction.apply_eq_eq_iff] at heq
  rw [ho, heq]

end AggregateFunction

namespace Aggregate

open AggregateFunction

variable {R : Type}

/--
The least and the greatest of values that are alike is the first one that no other precedes in the direction, in every
group. Over all records it is the same in any order of the records, as far as comparison can tell.
-/
theorem compute_extremum_and_rows_isFirstOf (direction : Direction) :
    (∀ values : List Value, values ≠ [] → Value.AreAlike values →
      ∃ value, compute (extremum direction) values = some value ∧ direction.IsFirstOf values value) ∧
    ∀ (field : Field R) (order : Option Direction) (records : List R),
      records.filterMap field.read ≠ [] → Value.AreAlike (records.filterMap field.read) →
        let aggregate : Aggregate R := { function := extremum direction, field, order }
        ∃ value, (aggregate.rows records).map Row.value = [some value] ∧
          direction.IsFirstOf (records.filterMap field.read) value ∧
          ∀ others : List R, others.Perm records →
            ∃ value', (aggregate.rows others).map Row.value = [some value'] ∧
              value'.compare value = some .eq := by
  have hcompute := fun values => @exists_compute_extremum_eq_some values direction
  refine ⟨hcompute, ?_⟩
  intro field order records hne halike aggregate
  have hrows : ∀ records : List R, (aggregate.rows records).map Row.value =
      [compute (extremum direction) (records.filterMap field.read)] := by
    intro records
    rw [rows_of_isEmpty rfl, List.map_singleton]
  rcases hcompute _ hne halike with ⟨value, hvalue, hfirst⟩
  refine ⟨value, ?_, hfirst, ?_⟩
  · rw [hrows, hvalue]
  · intro others hperm
    have hvalues := hperm.filterMap field.read
    have hne' : others.filterMap field.read ≠ [] := by
      intro hnil
      rw [hnil] at hvalues
      exact hne hvalues.nil_eq.symm
    have halike' : Value.AreAlike (others.filterMap field.read) := halike.mono hvalues.subset
    rcases hcompute _ hne' halike' with ⟨value', hvalue', hfirst'⟩
    refine ⟨value', ?_, compare_eq_some_eq_of_perm halike hfirst hfirst' hvalues⟩
    rw [hrows, hvalue']

theorem compute_extremum_and_rows_isFirstOf_years :
    let year : Field (Option Value) := { name := "year", type := .number, read := id }
    let records : List (Option Value) :=
      [some (.number (.signed 1965)), none, some (.number (.unsigned 1815)), some (.number (.signed 1815))]
    let aggregate : Aggregate (Option Value) := { function := extremum .ascending, field := year, order := none }
    records.filterMap year.read ≠ [] ∧ Value.AreAlike (records.filterMap year.read) ∧
      (∃ value, compute (extremum .ascending) (records.filterMap year.read) = some value ∧
        Direction.ascending.IsFirstOf (records.filterMap year.read) value) ∧
      ∃ value, (aggregate.rows records).map Row.value = [some value] ∧
        Direction.ascending.IsFirstOf (records.filterMap year.read) value ∧
        ∀ others : List (Option Value), others.Perm records →
          ∃ value', (aggregate.rows others).map Row.value = [some value'] ∧
            value'.compare value = some .eq := by
  intro year records aggregate
  have hne : records.filterMap year.read ≠ [] := by simp [records, year]
  have halike : Value.AreAlike (records.filterMap year.read) :=
    ⟨by simp [records, year, Value.type], .inl (by simp [records, year, Number.toInt?])⟩
  rcases compute_extremum_and_rows_isFirstOf (R := Option Value) .ascending with ⟨hcompute, hrows⟩
  exact ⟨hne, halike, hcompute _ hne halike, hrows year none records hne halike⟩

end Aggregate

end Criteria
