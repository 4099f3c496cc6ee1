import Criteria.Proofs.Registry
import Criteria.Proofs.Text.Order
import Mathlib.Data.Finset.Card

/-!
This module contains what a registry knows after a run of additions. A name stands for the first field that was added
under it, and an attempt to add another field under this name leaves the registry as it was.
-/

namespace Criteria.Registry

variable {R : Type} {registry after : Registry R} {fields : List (Field R)} {field : Field R}
  {name : String} {e : Error}

theorem register_eq_error_iff :
    registry.register field = .error e ↔
      registry.contains field.name ∧ e = .duplicateField field.name := by
  rw [contains_iff]
  unfold register
  split
  next h => simp [h, eq_comm]
  next h => simp [h]

theorem get?_of_register (h : registry.register field = .ok after) (name : String) :
    after.get? name = (registry.get? name).or (if field.name = name then some field else none) := by
  unfold get?
  rw [fields_of_register h, List.find?_append, List.find?_singleton]
  simp only [decide_eq_true_eq]

theorem add_run (field : Field R) (registry : Registry R) :
    (add field).run registry =
      match registry.register field with
      | .ok after => .ok () after
      | .error e => .error e registry := by
  have hadd : (add field).run registry =
      EStateM.run (MonadExcept.ofExcept (registry.register field) >>= set) registry := rfl
  rw [hadd, EStateM.run_ofExcept_bind]
  cases registry.register field <;> rfl

theorem add_run_eq_error_iff :
    (add field).run registry = .error e after ↔
      registry.contains field.name ∧ e = .duplicateField field.name ∧ after = registry := by
  rw [add_run]
  constructor
  · intro h
    split at h
    next => cases h
    next hregister =>
      cases h
      rcases register_eq_error_iff.mp hregister with ⟨hcontains, rfl⟩
      exact ⟨hcontains, rfl, rfl⟩
  · intro h
    rcases h with ⟨hcontains, rfl, rfl⟩
    rw [register_eq_error_iff.mpr ⟨hcontains, rfl⟩]

theorem get?_next (registry : Registry R) (field : Field R) (name : String) :
    (registry.next field).get? name =
      (registry.get? name).or (if field.name = name then some field else none) := by
  unfold next
  rw [add_run]
  cases h : registry.register field with
  | ok after => exact get?_of_register h name
  | error e =>
    -- The registry is as before, and what it has under the name of the field is another one.
    rcases register_eq_error_iff.mp h with ⟨hcontains, _⟩
    by_cases hname : field.name = name
    · rw [hname] at hcontains
      exact (Option.or_of_isSome hcontains).symm
    · rw [if_neg hname, Option.or_none]

theorem get?_run (registry : Registry R) (fields : List (Field R)) (name : String) :
    (registry.run fields).get? name =
      (registry.get? name).or (fields.find? fun field => field.name = name) := by
  induction fields generalizing registry with
  | nil => simp [run]
  | cons field fields ih =>
    have hrun : registry.run (field :: fields) = (registry.next field).run fields := List.foldl_cons
    rw [hrun, ih, get?_next, Option.or_assoc]
    by_cases hname : field.name = name <;> simp [hname]

theorem pairwise_names (registry : Registry R) :
    registry.names.Pairwise fun a b => Text.bytes a < Text.bytes b := by
  have hle : registry.names.Pairwise fun a b => decide (a ≤ b) := by
    apply List.pairwise_mergeSort
    · intro a b c hab hbc
      rw [decide_eq_true_eq] at hab hbc ⊢
      exact hab.trans hbc
    · intro a b
      rw [Bool.or_eq_true, decide_eq_true_eq, decide_eq_true_eq]
      exact le_total a b
  have hne : registry.names.Nodup := (List.mergeSort_perm _ _).nodup_iff.mpr registry.nodup_names
  apply (hle.and hne).imp
  intro a b h
  apply Text.bytes_lt_bytes
  exact lt_of_le_of_ne (of_decide_eq_true h.1) h.2

theorem size_eq_card (registry : Registry R) :
    registry.size = (registry.fields.map Field.name).toFinset.card := by
  rw [List.toFinset_card_of_nodup registry.nodup_names, List.length_map]
  rfl

def IsFirstOf (fields : List (Field R)) (name : String) (field : Field R) : Prop :=
  field.name = name ∧ ∃ before after, fields = before ++ field :: after ∧
    ∀ earlier ∈ before, earlier.name ≠ name

theorem get?_run_empty (fields : List (Field R)) (name : String) :
    (run empty fields).get? name = fields.find? fun field => field.name = name := by
  have hempty : (empty : Registry R).get? name = none := rfl
  rw [get?_run, hempty, Option.none_or]

theorem get?_run_empty_eq_some_iff :
    (run empty fields).get? name = some field ↔ IsFirstOf fields name field := by
  rw [get?_run_empty, List.find?_eq_some_iff_append]
  simp [IsFirstOf]

theorem contains_run_empty_iff :
    (run empty fields).contains name ↔ ∃ field ∈ fields, field.name = name := by
  unfold contains
  rw [get?_run_empty, List.find?_isSome]
  simp

theorem size_run_empty (fields : List (Field R)) :
    (run empty fields).size = (fields.map Field.name).toFinset.card := by
  rw [size_eq_card]
  congr 1
  ext name
  rw [List.mem_toFinset, ← contains_iff, contains_run_empty_iff]
  simp

/--
What it means that a registry keeps the first field under each name that was used. Another field fails exactly if its name
was used before, and the registry stays as it was. What is found under a name is the first field of this name with all that
belongs to it, and the names are known once each, in the order of their bytes.
-/
structure KeepsFirst (registry : Registry R) (fields : List (Field R)) : Prop where
  add_fails : ∀ field e after, (add field).run registry = .error e after ↔
    (∃ earlier ∈ fields, earlier.name = field.name) ∧ e = .duplicateField field.name ∧
      after = registry
  lookup : ∀ name field, registry.lookup name = .ok field ↔ IsFirstOf fields name field
  lookup_fails : ∀ name e, registry.lookup name = .error e ↔
    (∀ field ∈ fields, field.name ≠ name) ∧ e = .unknownField name
  get : ∀ name field, registry.get? name = some field ↔ IsFirstOf fields name field
  contains : ∀ name, registry.contains name ↔ ∃ field ∈ fields, field.name = name
  size : registry.size = (fields.map Field.name).toFinset.card
  mem_names : ∀ name, name ∈ registry.names ↔ ∃ field ∈ fields, field.name = name
  names_sorted : registry.names.Pairwise fun a b => Text.bytes a < Text.bytes b

/-- Whatever fields are added in turn, to begin with an empty registry, the first one keeps its name. -/
theorem keepsFirst_run (fields : List (Field R)) : (run empty fields).KeepsFirst fields where
  add_fails := by
    intro field e after
    rw [add_run_eq_error_iff, contains_run_empty_iff]
  lookup := by
    intro name field
    rw [lookup_eq_ok_iff, ← get?_eq_some_iff, get?_run_empty_eq_some_iff]
  lookup_fails := by
    intro name e
    rw [lookup_eq_error_iff, ← Bool.not_eq_true, contains_run_empty_iff]
    simp
  get _ _ := get?_run_empty_eq_some_iff
  contains _ := contains_run_empty_iff
  size := size_run_empty fields
  mem_names _ := mem_names.trans contains_run_empty_iff
  names_sorted := pairwise_names _

end Criteria.Registry
