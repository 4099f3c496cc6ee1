import Criteria.Proofs.Filter.Wildcard

/-!
This module contains the proof that the conversion of arguments and the making of leaves agree. What the one gives is
fit for the other, and an operator or a number of arguments that the one refuses is refused by the other with the same
error.
-/

namespace Criteria

namespace Error

def isMalformed : Error → Bool
  | wrongArity _ _ _ | emptySortKey _ | malformedFilter _ => true
  | _ => false

def isMismatch : Error → Bool
  | inapplicableOperator _ _ _ | typeMismatch _ _ _ => true
  | _ => false

end Error

theorem ValueType.exists_type_eq (type : ValueType) : ∃ value : Value, value.type = type := by
  cases type with
  | string => exact ⟨.string "", rfl⟩
  | number => exact ⟨.number (.signed 0), rfl⟩
  | timestamp => exact ⟨.timestamp ⟨0⟩, rfl⟩
  | enum => exact ⟨.enum 0, rfl⟩
  | bool => exact ⟨.bool true, rfl⟩

variable {R : Type} {settings : Settings} {field : Field R} {operator : Operator}
  {arguments : List String} {e : Error}

namespace Leaf

theorem isMalformed_or_isMismatch_of_checkOperator {count : Nat}
    (h : checkOperator field operator count = .error e) : e.isMalformed ∨ e.isMismatch := by
  rcases checkOperator_eq_error_iff.mp h with ⟨_, rfl⟩ | ⟨_, _, rfl⟩
  · exact .inl rfl
  · exact .inr rfl

theorem forall_make_eq_error_iff {count : Nat} :
    (∀ operands : List Value, operands.length = count → make field operator operands = .error e) ↔
      checkOperator field operator count = .error e := by
  constructor
  -- Operands of the right type leave only the operator and their number to be wrong.
  · intro h
    rcases field.type.exists_type_eq with ⟨value, hvalue⟩
    have hlength : (List.replicate count value).length = count := List.length_replicate
    have hmake := h (List.replicate count value) hlength
    cases hcheck : checkOperator field operator count with
    | error e' =>
      rw [← hlength] at hcheck
      rw [make_of_checkOperator_eq_error hcheck] at hmake
      cases hmake
      rfl
    | ok _ =>
      rcases checkOperator_eq_ok_iff.mp hcheck with ⟨harity, hclass⟩
      have hvalid : IsValid field operator (List.replicate count value) := by
        constructor
        · rwa [hlength]
        · exact hclass
        · intro operand hoperand
          rw [List.eq_of_mem_replicate hoperand]
          exact hvalue
      rw [make_eq_ok_iff.mpr ⟨rfl, hvalid⟩] at hmake
      cases hmake
  · intro h operands hoperands
    rw [← hoperands] at h
    exact make_of_checkOperator_eq_error h

theorem isValid_of_isNullCheck (h : operator.isNullCheck) : IsValid field operator [] := by
  cases operator with
  | isNull | notNull => exact ⟨rfl, rfl, by simp⟩
  | _ => cases h

end Leaf

namespace Filter

theorem isValid_of_rewriteEquality? {negated : Bool} {argument : String} {converted : Converted}
    (h : rewriteEquality? settings field negated argument = some converted) :
    Leaf.IsValid field converted.operator converted.operands := by
  unfold rewriteEquality? at h
  split at h
  next hwildcard =>
    simp only [Bool.and_eq_true, decide_eq_true_eq] at hwildcard
    cases h
    exact isValid_patternMatch hwildcard.1.2 _
  next =>
    split at h
    next =>
      cases h
      apply Leaf.isValid_of_isNullCheck
      cases negated <;> rfl
    next => cases h

theorem isValid_of_rewrite? {converted : Converted}
    (h : rewrite? settings field operator arguments = some converted) :
    Leaf.IsValid field converted.operator converted.operands := by
  unfold rewrite? at h
  split at h
  next => exact isValid_of_rewriteEquality? h
  next => exact isValid_of_rewriteEquality? h
  next => cases h

theorem isValid_of_mapM_convertArgument {operands : List Value} (hreader : field.reader = none)
    (hcheck : Leaf.checkOperator field operator arguments.length = .ok ())
    (h : arguments.mapM (convertArgument field) = .ok operands) :
    Leaf.IsValid field operator operands := by
  rw [Except.mapM_eq_ok_iff] at h
  rcases Leaf.checkOperator_eq_ok_iff.mp hcheck with ⟨harity, hclass⟩
  constructor
  · rwa [← h.length_eq]
  · exact hclass
  · intro operand hoperand
    rcases h.exists_of_mem hoperand with ⟨argument, _, hargument⟩
    rw [convertArgument_eq_ok_iff] at hargument
    unfold Field.readText? at hargument
    rw [hreader] at hargument
    exact Field.type_of_readByType? hargument

theorem isValid_of_convert_eq_ok {converted : Converted} (hreader : field.reader = none)
    (h : convert settings field operator arguments = .ok converted) :
    Leaf.IsValid field converted.operator converted.operands := by
  cases hnull : operator.isNullCheck with
  | true =>
    rw [convert_of_isNullCheck hnull] at h
    cases h
    exact Leaf.isValid_of_isNullCheck hnull
  | false =>
    cases hrewrite : rewrite? settings field operator arguments with
    | some rewritten =>
      rw [convert_of_rewrite?_eq_some hnull hrewrite] at h
      cases h
      exact isValid_of_rewrite? hrewrite
    | none =>
      rw [convert_of_rewrite?_eq_none hnull hrewrite, Except.bind_eq_ok_iff] at h
      rcases h with ⟨_, hcheck, h⟩
      rcases Except.bind_eq_ok_iff.mp h with ⟨operands, hoperands, hconverted⟩
      cases hconverted
      exact isValid_of_mapM_convertArgument hreader hcheck hoperands

theorem convert_eq_error_and_iff_make :
    (convert settings field operator arguments = .error e ∧ (e.isMalformed ∨ e.isMismatch)) ↔
      operator.isNullCheck = false ∧ rewrite? settings field operator arguments = none ∧
        ∀ operands : List Value, operands.length = arguments.length →
          Leaf.make field operator operands = .error e := by
  rw [convert_eq_error_iff, Leaf.forall_make_eq_error_iff]
  constructor
  · intro h
    rcases h with ⟨⟨hnull, hrewrite, hcheck | ⟨_, _, _, rfl⟩⟩, hkind⟩
    · exact ⟨hnull, hrewrite, hcheck⟩
    · simp [Error.isMalformed, Error.isMismatch] at hkind
  · intro h
    rcases h with ⟨hnull, hrewrite, hcheck⟩
    exact ⟨⟨hnull, hrewrite, .inl hcheck⟩, Leaf.isMalformed_or_isMismatch_of_checkOperator hcheck⟩

theorem convert_eq_error_and_iff_find? :
    (convert settings field operator arguments = .error e ∧ ¬(e.isMalformed ∨ e.isMismatch)) ↔
      operator.isNullCheck = false ∧ rewrite? settings field operator arguments = none ∧
        operator.arity.accepts arguments.length ∧ operator.valueClass.admits field.type ∧
          ∃ argument, (arguments.find? fun raw => (field.readText? raw).isNone) = some argument ∧
            e = .unconvertible field.name argument field.type := by
  rw [convert_eq_error_iff, Leaf.checkOperator_eq_ok_iff]
  constructor
  · intro h
    rcases h with ⟨⟨hnull, hrewrite, hcheck | ⟨⟨harity, hclass⟩, hargument⟩⟩, hkind⟩
    · exact absurd (Leaf.isMalformed_or_isMismatch_of_checkOperator hcheck) hkind
    · exact ⟨hnull, hrewrite, harity, hclass, hargument⟩
  · intro h
    rcases h with ⟨hnull, hrewrite, harity, hclass, argument, hargument, rfl⟩
    refine ⟨⟨hnull, hrewrite, .inr ⟨⟨harity, hclass⟩, argument, hargument, rfl⟩⟩, ?_⟩
    simp [Error.isMalformed, Error.isMismatch]

/--
Conversion and the making of leaves never disagree. What arguments are converted to makes a leaf if the field has no
reader of its own. A conversion that tells of a malformed filter or a type that does not fit tells what making a leaf of as
many operands does. Any other failure is that of the first argument that the field cannot read, when nothing is wrong with
the operator and the number of arguments. Checks for null do not fail.
-/
theorem convert_agrees_with_make (settings : Settings) (field : Field R) (operator : Operator)
    (arguments : List String) :
    (∀ converted, convert settings field operator arguments = .ok converted → field.reader = none →
      Leaf.make field converted.operator converted.operands =
        .ok ⟨field, converted.operator, converted.operands⟩) ∧
    (∀ e, (convert settings field operator arguments = .error e ∧ (e.isMalformed ∨ e.isMismatch)) ↔
      operator.isNullCheck = false ∧ rewrite? settings field operator arguments = none ∧
        ∀ operands : List Value, operands.length = arguments.length →
          Leaf.make field operator operands = .error e) ∧
    (∀ e, (convert settings field operator arguments = .error e ∧ ¬(e.isMalformed ∨ e.isMismatch)) ↔
      operator.isNullCheck = false ∧ rewrite? settings field operator arguments = none ∧
        operator.arity.accepts arguments.length ∧ operator.valueClass.admits field.type ∧
          ∃ argument, (arguments.find? fun raw => (field.readText? raw).isNone) = some argument ∧
            e = .unconvertible field.name argument field.type) ∧
    (operator.isNullCheck →
      convert settings field operator arguments = .ok ⟨operator, []⟩ ∧
        Leaf.make field operator [] = .ok ⟨field, operator, []⟩) := by
  refine ⟨?_, fun _ => convert_eq_error_and_iff_make, fun _ => convert_eq_error_and_iff_find?, ?_⟩
  · intro converted hconvert hreader
    exact Leaf.make_eq_ok_iff.mpr ⟨rfl, isValid_of_convert_eq_ok hreader hconvert⟩
  · intro hnull
    exact ⟨convert_of_isNullCheck hnull arguments,
      Leaf.make_eq_ok_iff.mpr ⟨rfl, Leaf.isValid_of_isNullCheck hnull⟩⟩

end Filter

end Criteria
