import Criteria.Field

/-!
This module contains registries, which know the fields of a record type by their names. The first field
that is registered under a name keeps it.
-/

namespace Criteria

structure Registry (R : Type) where
  fields : List (Field R) := []
  nodup_names : (fields.map Field.name).Nodup := by simp

namespace Registry

variable {R : Type}

def empty : Registry R := {}

def get? (registry : Registry R) (name : String) : Option (Field R) :=
  registry.fields.find? fun field => field.name = name

def lookup (registry : Registry R) (name : String) : Except Error (Field R) :=
  match registry.get? name with
  | some field => .ok field
  | none => .error (.unknownField name)

def typed (registry : Registry R) (type : ValueType) (name : String) : Except Error (Handle R type) := do
  (← registry.lookup name).typed type

def contains (registry : Registry R) (name : String) : Bool :=
  (registry.get? name).isSome

def size (registry : Registry R) : Nat :=
  registry.fields.length

def isEmpty (registry : Registry R) : Bool :=
  registry.fields.isEmpty

def names (registry : Registry R) : List String :=
  (registry.fields.map Field.name).mergeSort fun a b => decide (a ≤ b)

def register (registry : Registry R) (field : Field R) : Except Error (Registry R) :=
  if h : field.name ∈ registry.fields.map Field.name then
    .error (.duplicateField field.name)
  else
    .ok ⟨registry.fields ++ [field], by
      simpa [List.nodup_append, registry.nodup_names] using h⟩

def ofFields (fields : List (Field R)) : Except Error (Registry R) :=
  fields.foldlM register empty

abbrev Change (R : Type) := EStateM Error (Registry R)

def add (field : Field R) : Change R Unit := do
  set (← MonadExcept.ofExcept ((← get).register field))

def next (registry : Registry R) (field : Field R) : Registry R :=
  match (add field).run registry with
  | .ok _ after => after
  | .error _ after => after

def run (registry : Registry R) (fields : List (Field R)) : Registry R :=
  fields.foldl next registry

theorem contains_iff {registry : Registry R} {name : String} :
    registry.contains name ↔ name ∈ registry.fields.map Field.name := by
  simp [contains, get?]

theorem fields_of_register {registry after : Registry R} {field : Field R}
    (h : registry.register field = .ok after) : after.fields = registry.fields ++ [field] := by
  unfold register at h
  split at h
  · cases h
  · cases h; rfl

theorem mem_names {registry : Registry R} {name : String} :
    name ∈ registry.names ↔ registry.contains name := by
  rw [contains_iff, names, List.mem_mergeSort]

end Registry

end Criteria
