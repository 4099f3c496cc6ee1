import Criteria.Proofs.Except
import Criteria.Registry
import Mathlib.Data.List.Nodup

/-!
This module contains what is found when a name is looked up in a registry: the one field that has this name, or an error
that tells the name.
-/

namespace Criteria.Registry

variable {R : Type} {registry : Registry R} {field : Field R} {name : String} {e : Error}

theorem get?_eq_some_iff :
    registry.get? name = some field ↔ field ∈ registry.fields ∧ field.name = name := by
  unfold get?
  constructor
  · intro h
    have hname := List.find?_some h
    rw [decide_eq_true_eq] at hname
    exact ⟨List.mem_of_find?_eq_some h, hname⟩
  · intro h
    rcases h with ⟨hfield, rfl⟩
    cases hfind : registry.fields.find? fun other => other.name = field.name with
    | none =>
      have hnot := List.find?_eq_none.mp hfind field hfield
      simp at hnot
    | some other =>
      have hmem := List.mem_of_find?_eq_some hfind
      have hname := List.find?_some hfind
      rw [decide_eq_true_eq] at hname
      rw [List.inj_on_of_nodup_map registry.nodup_names hmem hfield hname]

theorem lookup_eq_ok_iff :
    registry.lookup name = .ok field ↔ field ∈ registry.fields ∧ field.name = name := by
  rw [← get?_eq_some_iff]
  unfold lookup
  cases registry.get? name <;> simp

theorem lookup_eq_error_iff :
    registry.lookup name = .error e ↔ registry.contains name = false ∧ e = .unknownField name := by
  unfold lookup contains
  cases registry.get? name with
  | none => simpa using eq_comm
  | some field => simp

theorem lookup_of_mem (h : field ∈ registry.fields) : registry.lookup field.name = .ok field :=
  lookup_eq_ok_iff.mpr ⟨h, rfl⟩

theorem lookup_of_typed {type : ValueType} {handle : Handle R type}
    (h : registry.typed type name = .ok handle) : registry.lookup name = .ok handle.field := by
  unfold typed at h
  rcases Except.bind_eq_ok_iff.mp h with ⟨found, hlookup, htyped⟩
  unfold Field.typed at htyped
  split at htyped
  next =>
    cases htyped
    exact hlookup
  next => cases htyped

end Criteria.Registry
