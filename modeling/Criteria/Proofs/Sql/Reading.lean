import Criteria.Sql.Reader

/-!
This module contains the proof that a written SQL condition is read back from its text and its operands,
whatever the names of the columns are.
-/

namespace Criteria.Sql

namespace Reader

def escape (name : List Char) : List Char :=
  name.flatMap fun c => if c = '"' then ['"', '"'] else [c]

theorem toList_quoteIdentifier (name : String) :
    (quoteIdentifier name).toList = '"' :: (escape name.toList ++ ['"']) := by
  unfold quoteIdentifier escape
  rw [String.toList_ofList, List.cons_append]

theorem identifier?_escape (name rest : List Char) (h : rest.head? ≠ some '"') :
    identifier? (escape name ++ '"' :: rest) = some (name, rest) := by
  induction name with
  | nil =>
    cases rest with
    | nil => rfl
    | cons c rest =>
      have : c ≠ '"' := by
        intro hc
        apply h
        rw [hc, List.head?_cons]
      simp [escape, identifier?, this]
  | cons c name ih =>
    unfold escape at ih ⊢
    rw [List.flatMap_cons, List.append_assoc]
    by_cases hc : c = '"'
    · simp [hc, identifier?, ih]
    · rw [if_neg hc, List.singleton_append, identifier?]
      · rw [ih]
        rfl
      · intro _ hnil
        simp at hnil
      · intro _ _ heq
        exact absurd heq hc

theorem toList_placeholders_succ (count : Nat) :
    (placeholders (count + 2)).toList = '?' :: ',' :: ' ' :: (placeholders (count + 1)).toList := by
  unfold placeholders
  rw [List.replicate_succ, List.replicate_succ, String.intercalate_cons_cons]
  rw [String.toList_append, String.toList_append, ← List.replicate_succ]
  rfl

theorem placeholders?_placeholders (count : Nat) (rest : List Char) :
    placeholders? ((placeholders (count + 1)).toList ++ ')' :: rest) = some (count + 1, rest) := by
  induction count with
  | zero => rfl
  | succ count ih =>
    rw [toList_placeholders_succ]
    simp only [List.cons_append, placeholders?, ih, Option.map_some]

theorem skip?_append (beginning s : List Char) : skip? beginning (beginning ++ s) = some s := by
  induction beginning with
  | nil => rfl
  | cons c beginning ih =>
    rw [List.cons_append, skip?, if_pos rfl, ih]

theorem listRelation?_isIn {s : List Char} {count : Nat} {rest : List Char}
    (h : placeholders? s = some (count, rest)) :
    listRelation? (" IN (".toList ++ s) = some (.isIn, count, rest) := by
  have hskip := skip?_append " IN (".toList s
  unfold listRelation? listRelations
  simp only [List.findSome?_cons, hskip, Option.bind_some, h, Option.map_some]

theorem listRelation?_notIn {s : List Char} {count : Nat} {rest : List Char}
    (h : placeholders? s = some (count, rest)) :
    listRelation? (" NOT IN (".toList ++ s) = some (.notIn, count, rest) := by
  have hskip := skip?_append " NOT IN (".toList s
  have hother : skip? " IN (".toList (" NOT IN (".toList ++ s) = none := rfl
  unfold listRelation? listRelations
  simp only [List.findSome?_cons, hother, Option.bind_none, Option.map_none]
  simp only [hskip, Option.bind_some, h, Option.map_some]

theorem toList_list (opening : String) (count : Nat) (rest : List Char) :
    (opening ++ placeholders count ++ ")").toList ++ rest =
      opening.toList ++ ((placeholders count).toList ++ ')' :: rest) := by
  rw [String.toList_append, String.toList_append, List.append_assoc, List.append_assoc]
  rfl

theorem relation?_writeRelation {operator : Operator} {count : Nat}
    (h : operator.arity.accepts count) (rest : List Char) :
    relation? ((writeRelation operator count).toList ++ rest) = some (operator, count, rest) := by
  simp only [Operator.arity, Arity.accepts] at h
  cases operator with
  | isIn =>
    cases count with
    | zero => cases h
    | succ count =>
      simp only [writeRelation, toList_list]
      -- No relation with a fixed number of placeholders begins as a list of them does.
      exact listRelation?_isIn (placeholders?_placeholders count rest)
  | notIn =>
    cases count with
    | zero => cases h
    | succ count =>
      simp only [writeRelation, toList_list]
      exact listRelation?_notIn (placeholders?_placeholders count rest)
  | _ =>
    rw [decide_eq_true_eq] at h
    subst h
    rfl

theorem head?_writeRelation (operator : Operator) (count : Nat) (rest : List Char) :
    ((writeRelation operator count).toList ++ rest).head? = some ' ' := by
  cases operator <;> simp [writeRelation]

theorem toList_comparison_toText (comparison : Comparison) (rest : List Char) :
    comparison.toText.toList ++ rest =
      '"' :: (escape comparison.column.toList ++ '"' ::
        ((writeRelation comparison.operator comparison.operands.length).toList ++ rest)) := by
  unfold Comparison.toText
  simp only [String.toList_append, toList_quoteIdentifier, List.cons_append, List.append_assoc,
    List.nil_append]

theorem comparison?_toText {comparison : Comparison}
    (h : comparison.operator.arity.accepts comparison.operands.length) (rest : List Char)
    (operands : List Value) :
    ∃ hlt, comparison? (escape comparison.column.toList ++ '"' ::
        ((writeRelation comparison.operator comparison.operands.length).toList ++ rest))
        (comparison.operands ++ operands) = some ⟨⟨.atom comparison, operands⟩, rest, hlt⟩ := by
  have hidentifier := identifier?_escape comparison.column.toList
    ((writeRelation comparison.operator comparison.operands.length).toList ++ rest)
    (by rw [head?_writeRelation]; decide)
  have hrelation := relation?_writeRelation h rest
  refine ⟨?_, ?_⟩
  · have := length_lt_of_identifier? hidentifier
    have := length_le_of_relation? hrelation
    omega
  · unfold comparison?
    split
    next hnone =>
      rw [hidentifier] at hnone
      cases hnone
    next hsome =>
      rw [hidentifier] at hsome
      cases hsome
      split
      next hnone =>
        rw [hrelation] at hnone
        cases hnone
      next hsome =>
        rw [hrelation] at hsome
        cases hsome
        simp

theorem separatorText_eq (connective : Connective) :
    separatorText connective = (Predicate.separator connective).toList := by
  cases connective <;> rfl

def write (connective : Connective) (children : List Predicate) : List Char :=
  (separatorText connective).intercalate (children.map fun child => child.toText.toList)

theorem write_cons_cons (connective : Connective) (child next : Predicate)
    (children : List Predicate) (rest : List Char) :
    write connective (child :: next :: children) ++ rest =
      child.toText.toList ++
        (separatorText connective ++ (write connective (next :: children) ++ rest)) := by
  unfold write
  rw [List.map_cons, List.map_cons, List.intercalate_cons_cons]
  rw [List.append_assoc, List.append_assoc]

theorem toList_toText_group (connective : Connective) (children : List Predicate)
    (rest : List Char) :
    (Predicate.toText (.group connective children)).toList ++ rest =
      '(' :: (write connective children ++ ')' :: rest) := by
  unfold Predicate.toText write
  rw [Formula.fold_group, separatorText_eq, String.toList_append, String.toList_append]
  rw [String.toList_intercalate, List.map_map, List.append_assoc, List.append_assoc]
  rfl

theorem parameters_group (connective : Connective) (children : List Predicate) :
    Predicate.parameters (.group connective children) = children.flatMap Predicate.parameters := by
  unfold Predicate.parameters
  rw [Formula.atoms_group, List.flatMap_assoc]

theorem separator?_separatorText (connective : Connective) (s : List Char) :
    separator? (separatorText connective ++ s) = some (connective, s) := by
  cases connective <;> rfl

theorem closing?_separatorText (connective : Connective) (s : List Char) :
    closing? (separatorText connective ++ s) = none := by
  cases connective <;> rfl

theorem skipSeparator?_separatorText (connective : Connective) (s : List Char) :
    ∃ hlt, skipSeparator? connective (separatorText connective ++ s) = some ⟨s, hlt⟩ := by
  refine ⟨?_, ?_⟩
  · have := length_separatorText_pos connective
    rw [List.length_append]
    omega
  · unfold skipSeparator?
    simp [skip?_append]

def ReadBack (predicate : Predicate) : Prop :=
  ∀ rest operands, ∃ hlt,
    predicate? (predicate.toText.toList ++ rest) (predicate.parameters ++ operands) =
      some ⟨⟨predicate, operands⟩, rest, hlt⟩

theorem parts?_write (connective : Connective) {children : List Predicate} (hne : children ≠ [])
    (h : ∀ child ∈ children, ReadBack child) (rest : List Char) (operands : List Value) :
    ∃ hlt, parts? connective (write connective children ++ ')' :: rest)
      (children.flatMap Predicate.parameters ++ operands) =
        some ⟨⟨children, operands⟩, rest, hlt⟩ := by
  induction children with
  | nil => exact absurd rfl hne
  | cons child children ih =>
    rw [List.forall_mem_cons] at h
    cases children with
    | nil =>
      rcases h.1 (')' :: rest) operands with ⟨_, hfirst⟩
      unfold write
      rw [List.map_singleton, List.intercalate_singleton, List.flatMap_singleton, parts?, hfirst]
      exact ⟨_, rfl⟩
    | cons next children =>
      rcases ih (List.cons_ne_nil _ _) h.2 with ⟨_, hothers⟩
      rcases h.1 (separatorText connective ++ (write connective (next :: children) ++ ')' :: rest))
        ((next :: children).flatMap Predicate.parameters ++ operands) with ⟨_, hfirst⟩
      rcases skipSeparator?_separatorText connective
        (write connective (next :: children) ++ ')' :: rest) with ⟨_, hskip⟩
      rw [write_cons_cons, List.flatMap_cons, List.append_assoc, parts?, hfirst]
      dsimp
      rw [closing?_separatorText]
      dsimp
      rw [hskip]
      dsimp
      rw [hothers]
      exact ⟨_, rfl⟩

theorem readBack_atom {comparison : Comparison}
    (h : comparison.operator.arity.accepts comparison.operands.length) :
    ReadBack (.atom comparison) := by
  intro rest operands
  rcases comparison?_toText h rest operands with ⟨_, hcomparison⟩
  have hparameters : Predicate.parameters (.atom comparison) = comparison.operands := by
    simp [Predicate.parameters]
  have htext : Predicate.toText (.atom comparison) = comparison.toText := by
    simp [Predicate.toText]
  rw [hparameters, htext, toList_comparison_toText, predicate?, hcomparison]
  exact ⟨_, rfl⟩

theorem readBack_group {connective : Connective} {children : List Predicate}
    (hlength : 2 ≤ children.length) (h : ∀ child ∈ children, ReadBack child) :
    ReadBack (.group connective children) := by
  intro rest operands
  match children with
  | [] => simp at hlength
  | [child] => simp at hlength
  | first :: second :: others =>
    rw [List.forall_mem_cons] at h
    rcases parts?_write connective (List.cons_ne_nil _ _) h.2 rest operands with ⟨_, hothers⟩
    rcases h.1 (separatorText connective ++ (write connective (second :: others) ++ ')' :: rest))
      ((second :: others).flatMap Predicate.parameters ++ operands) with ⟨_, hfirst⟩
    rw [toList_toText_group, parameters_group, write_cons_cons, List.flatMap_cons]
    rw [List.append_assoc, predicate?, hfirst]
    dsimp
    split
    next hnone =>
      rw [separator?_separatorText] at hnone
      cases hnone
    next hsome =>
      rw [separator?_separatorText] at hsome
      cases hsome
      rw [hothers]
      refine ⟨?_, rfl⟩
      simp only [List.length_cons, List.length_append]
      omega

end Reader

inductive Predicate.IsReadable : Predicate → Prop where
  | atom {comparison : Comparison} :
      comparison.operator.arity.accepts comparison.operands.length → IsReadable (.atom comparison)
  | group {connective : Connective} {children : List Predicate} :
      2 ≤ children.length → (∀ child ∈ children, IsReadable child) →
        IsReadable (.group connective children)

theorem Predicate.IsReadable.readBack {predicate : Predicate} (h : predicate.IsReadable) :
    Reader.ReadBack predicate := by
  induction h with
  | atom h => exact Reader.readBack_atom h
  | group hlength _ ih => exact Reader.readBack_group hlength ih

theorem Predicate.read?_toText {predicate : Predicate} (h : predicate.IsReadable) :
    Predicate.read? predicate.toText predicate.parameters = some predicate := by
  have hread := h.readBack [] []
  rw [List.append_nil, List.append_nil] at hread
  rcases hread with ⟨_, hread⟩
  unfold Predicate.read?
  rw [hread]
  rfl

theorem Predicate.IsReadable.eq_of_toText_eq {predicate predicate' : Predicate} (h : predicate.IsReadable)
    (h' : predicate'.IsReadable) (htext : predicate.toText = predicate'.toText)
    (hparameters : predicate.parameters = predicate'.parameters) : predicate = predicate' := by
  have hread := Predicate.read?_toText h
  rw [htext, hparameters, Predicate.read?_toText h', Option.some.injEq] at hread
  exact hread.symm

end Criteria.Sql
