import Criteria.Proofs.Value

/-!
This module contains the proof that sorting by several keys puts records in order as long as the values of each key
are alike. The first key that tells two records apart decides, and records without its value come last.
-/

namespace Criteria

variable {R : Type} {records : List R}

theorem SortKey.orders_compare {key : SortKey R}
    (h : Value.AreAlike (records.filterMap key.field.read)) : Orders key.compare records := by
  apply Orders.comap (f := key.field.read)
  apply Direction.orders_compareValues
  rwa [List.filterMap_map, Function.id_comp]

namespace SortOrder

variable {order : SortOrder R}

theorem compare_cons (key : SortKey R) (keys : SortOrder R) (a b : R) :
    SortOrder.compare (key :: keys) a b = (key.compare a b).then (SortOrder.compare keys a b) := rfl

theorem orders_compare (h : ∀ key ∈ order, Value.AreAlike (records.filterMap key.field.read)) :
    Orders order.compare records := by
  induction order with
  | nil =>
    apply Orders.of_key (fun _ => 0)
    intro a _ b _
    rfl
  | cons key keys ih =>
    rw [List.forall_mem_cons] at h
    exact (SortKey.orders_compare h.1).lex (ih h.2)

theorem compare_eq_find? (order : SortOrder R) (a b : R) :
    order.compare a b =
      ((order.map fun key => key.compare a b).find? Ordering.isNe).getD .eq := by
  induction order with
  | nil => rfl
  | cons key keys ih =>
    rw [compare_cons, List.map_cons, ih]
    cases key.compare a b <;> rfl

theorem compare_append_of_forall_eq {before : SortOrder R} {a b : R}
    (h : ∀ key ∈ before, key.compare a b = .eq) (after : SortOrder R) :
    SortOrder.compare (before ++ after) a b = after.compare a b := by
  induction before with
  | nil => rfl
  | cons key before ih =>
    rw [List.forall_mem_cons] at h
    rw [List.cons_append, compare_cons, h.1, ih h.2]
    rfl

theorem isLE_compare_of_forall_eq {before after : SortOrder R} {key : SortKey R} {a b : R}
    (hle : (SortOrder.compare (before ++ key :: after) a b).isLE)
    (h : ∀ earlier ∈ before, earlier.compare a b = .eq) : (key.compare a b).isLE := by
  rw [compare_append_of_forall_eq h, compare_cons] at hle
  cases hkey : key.compare a b with
  | gt =>
    rw [hkey] at hle
    cases hle
  | _ => rfl

/--
What it means that the keys of an order rank records: the comparison is a total preorder of the records, the first
key that tells two of them apart decides, and it does so by their values in its direction.
-/
structure RanksByKeys (order : SortOrder R) (records : List R) : Prop where
  orders : Orders order.compare records
  refl : ∀ a ∈ records, order.compare a a = .eq
  first_decides : ∀ a b, order.compare a b =
    ((order.map fun key => key.compare a b).find? Ordering.isNe).getD .eq
  by_value : ∀ key ∈ order, ∀ a ∈ records, ∀ b ∈ records, ∀ x y,
    key.field.read a = some x → key.field.read b = some y →
      ∃ o, x.compare y = some o ∧ key.compare a b = key.direction.apply o

/--
What it means that records are sorted by keys: they are in the order, and among those that no earlier key tells apart,
the ones without the value of a key come last in either direction.
-/
structure IsSorted (order : SortOrder R) (records sorted : List R) : Prop
    extends IsStablySorted order.compare records sorted where
  missing_last : sorted.Pairwise fun a b => ∀ before key after, order = before ++ key :: after →
    (∀ earlier ∈ before, earlier.compare a b = .eq) →
      key.field.read a = none → key.field.read b = none

theorem ranksByKeys (h : ∀ key ∈ order, Value.AreAlike (records.filterMap key.field.read)) :
    order.RanksByKeys records where
  orders := orders_compare h
  refl _ ha := (orders_compare h).refl ha
  first_decides := compare_eq_find? order
  by_value := by
    intro key hkey a ha b hb x y hx hy
    have hxmem := List.mem_filterMap.mpr ⟨a, ha, hx⟩
    have hymem := List.mem_filterMap.mpr ⟨b, hb, hy⟩
    rcases (h key hkey).exists_compare_eq_some hxmem hymem with ⟨o, ho⟩
    refine ⟨o, ho, ?_⟩
    unfold SortKey.compare
    rw [hx, hy, Direction.compareValues_some, ho, Option.getD_some]

theorem isSorted_sort (h : Orders order.compare records) :
    order.IsSorted records (order.sort records) where
  toIsStablySorted := isStablySorted_stableSort h
  missing_last := by
    refine (pairwise_stableSort h).imp ?_
    rintro a b hle before key after rfl hearlier hnone
    have hkey := isLE_compare_of_forall_eq hle hearlier
    exact Direction.eq_none_of_isLE_compareValues hkey hnone

/-- Where the values of every key are alike, the keys rank the records, and sorting puts the records in order. -/
theorem ranksByKeys_and_isSorted_sort (order : SortOrder R) (records : List R)
    (h : ∀ key ∈ order, Value.AreAlike (records.filterMap key.field.read)) :
    order.RanksByKeys records ∧ order.IsSorted records (order.sort records) := by
  have hranks := ranksByKeys h
  exact ⟨hranks, isSorted_sort hranks.orders⟩

theorem ranksByKeys_and_isSorted_sort_years :
    let year : Field (Option Value × Option Value) := { name := "year", type := .number, read := Prod.fst }
    let title : Field (Option Value × Option Value) := { name := "title", type := .string, read := Prod.snd }
    let order : SortOrder (Option Value × Option Value) := [⟨year, .descending⟩, ⟨title, .ascending⟩]
    let records : List (Option Value × Option Value) :=
      [(none, some (.string "Dune")), (some (.number (.signed (-1))), none),
        (some (.number (.unsigned 0xFFFFFFFFFFFFFFFF)), none),
        (some (.number (.signed (-1))), some (.string "Emma"))]
    (∀ key ∈ order, Value.AreAlike (records.filterMap key.field.read)) ∧
      order.RanksByKeys records ∧ order.IsSorted records (order.sort records) := by
  intro year title order records
  have h : ∀ key ∈ order, Value.AreAlike (records.filterMap key.field.read) := by
    rw [List.forall_mem_cons, List.forall_mem_singleton]
    constructor
    · exact ⟨by simp [records, year, Value.type], .inl (by simp [records, year, Number.toInt?])⟩
    · exact ⟨by simp [records, title, Value.type], .inl (by simp [records, title])⟩
  exact ⟨h, ranksByKeys_and_isSorted_sort order records h⟩

end SortOrder

end Criteria
