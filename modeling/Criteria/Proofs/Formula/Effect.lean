import Criteria.Proofs.Except
import Criteria.Proofs.Formula.Simplification

/-!
This module contains what compiling a formula does apart from giving a predicate, in whatever monad atoms are
compiled. Each atom is compiled once, from left to right, and nothing else is done.
-/

namespace Criteria.Formula

section Monad

variable {α β P : Type} {m : Type → Type} [Monad m]

theorem discard_eq_bind [LawfulMonad m] (x : m β) :
    Functor.discard x = x >>= fun _ => pure () := by
  unfold Functor.discard
  rw [map_const, Function.comp_apply, map_eq_pure_bind]

theorem discard_pure [LawfulMonad m] (b : β) : Functor.discard (pure b : m β) = pure () := by
  rw [discard_eq_bind, pure_bind]

theorem discard_bind [LawfulMonad m] (x : m α) (f : α → m β) :
    Functor.discard (x >>= f) = x >>= fun a => Functor.discard (f a) := by
  simp only [discard_eq_bind, bind_assoc]

theorem bind_const_eq_discard_bind [LawfulMonad m] (x : m α) (y : m β) :
    (x >>= fun _ => y) = Functor.discard x >>= fun _ => y := by
  rw [discard_eq_bind, bind_assoc]
  simp only [pure_bind]

variable {comparison : α → m P} {combine combine' : Connective → List P → P}

theorem discard_compileAll [LawfulMonad m] {children : List (Formula α)}
    (h : ∀ child ∈ children, Functor.discard (child.compile comparison combine) =
      forM child.atoms fun a => Functor.discard (comparison a)) :
    Functor.discard (compileAll comparison combine children) =
      forM (children.flatMap atoms) fun a => Functor.discard (comparison a) := by
  induction children with
  | nil => rw [compileAll, discard_pure, List.flatMap_nil, List.forM_nil]
  | cons child children ih =>
    rw [List.forall_mem_cons] at h
    rw [compileAll, discard_bind, List.flatMap_cons, List.forM_append, ← h.1, ← ih h.2]
    rw [← bind_const_eq_discard_bind]
    congr 1
    funext predicate
    cases predicate with
    | none => rfl
    | some predicate => simp only [discard_bind, discard_pure, ← discard_eq_bind]

/-- Apart from its result, compiling a formula is compiling its atoms in turn. -/
theorem discard_compile [LawfulMonad m] (formula : Formula α) :
    Functor.discard (formula.compile comparison combine) =
      forM formula.atoms fun a => Functor.discard (comparison a) := by
  induction formula with
  | atom a =>
    rw [compile, discard_bind, atoms_atom, List.forM_cons]
    simp only [discard_pure, List.forM_nil]
    apply bind_const_eq_discard_bind
  | group connective children ih =>
    rw [compile, discard_bind, atoms_group, ← discard_compileAll ih]
    simp only [discard_pure, ← discard_eq_bind]

theorem join_congr (h : ∀ connective predicates, 2 ≤ predicates.length →
      combine connective predicates = combine' connective predicates)
    (connective : Connective) (predicates : List P) :
    join combine connective predicates = join combine' connective predicates := by
  match predicates with
  | [] => rfl
  | [predicate] => rfl
  | first :: second :: others =>
    simp only [join]
    rw [h connective _ (by simp)]

theorem compileAll_congr {children : List (Formula α)}
    (h : ∀ child ∈ children, child.compile comparison combine = child.compile comparison combine') :
    compileAll comparison combine children = compileAll comparison combine' children := by
  induction children with
  | nil => rw [compileAll, compileAll]
  | cons child children ih =>
    rw [List.forall_mem_cons] at h
    rw [compileAll, compileAll, h.1, ih h.2]

theorem compileAll_append_congr {before children children' : List (Formula α)}
    (h : compileAll comparison combine children = compileAll comparison combine children') :
    compileAll comparison combine (before ++ children) =
      compileAll comparison combine (before ++ children') := by
  induction before with
  | nil => exact h
  | cons child before ih => rw [List.cons_append, List.cons_append, compileAll, compileAll, ih]

theorem compileAll_cons_of_eq_none [LawfulMonad m] {child : Formula α} {children : List (Formula α)}
    (h : child.compile comparison combine = pure none) :
    compileAll comparison combine (child :: children) = compileAll comparison combine children := by
  rw [compileAll, h, pure_bind]

theorem compile_of_isEmpty [LawfulMonad m] {formula : Formula α} (h : formula.isEmpty) :
    formula.compile comparison combine = pure none := by
  induction formula with
  | atom a => simp at h
  | group connective children ih =>
    rw [isEmpty_group, List.all_eq_true] at h
    have hchildren : compileAll comparison combine children = pure [] := by
      induction children with
      | nil => rw [compileAll]
      | cons child children ih' =>
        rw [List.forall_mem_cons] at ih h
        rw [compileAll_cons_of_eq_none (ih.1 h.1), ih' ih.2 h.2]
    rw [compile, hchildren, pure_bind]
    rfl

theorem compile_eq_of_simplifies [LawfulMonad m] {formula formula' : Formula α}
    (h : Simplifies formula formula') :
    formula.compile comparison combine = formula'.compile comparison combine := by
  cases h with
  | drop hempty =>
    rw [compile, compile]
    rw [compileAll_append_congr (compileAll_cons_of_eq_none (compile_of_isEmpty hempty))]
  | @unwrap connective =>
    rw [compile, compileAll, compileAll, bind_assoc]
    refine Eq.trans ?_ (bind_pure _)
    congr 1
    funext predicate
    cases predicate with
    | none => rw [pure_bind, join]
    | some predicate => simp only [pure_bind, join]

theorem compile_eq_of_within {step : Formula α → Formula α → Prop}
    (hstep : ∀ formula formula', step formula formula' →
      formula.compile comparison combine = formula'.compile comparison combine)
    {formula formula' : Formula α} (h : Within step formula formula') :
    formula.compile comparison combine = formula'.compile comparison combine := by
  induction h with
  | here h => exact hstep _ _ h
  | @child connective before after child child' _ ih =>
    have hchildren : compileAll comparison combine (child :: after) =
        compileAll comparison combine (child' :: after) := by
      rw [compileAll, compileAll, ih]
    rw [compile, compile, compileAll_append_congr hchildren]

theorem compile_eq_of_simplifiesTo [LawfulMonad m] {formula formula' : Formula α}
    (h : SimplifiesTo formula formula') :
    formula.compile comparison combine = formula'.compile comparison combine := by
  induction h with
  | refl => rfl
  | tail _ hstep ih =>
    rw [ih]
    apply compile_eq_of_within _ hstep
    intro formula formula' h
    exact compile_eq_of_simplifies h

theorem compile_congr (h : ∀ connective predicates, 2 ≤ predicates.length →
      combine connective predicates = combine' connective predicates) (formula : Formula α) :
    formula.compile comparison combine = formula.compile comparison combine' := by
  induction formula with
  | atom a => rw [compile, compile]
  | group connective children ih =>
    rw [compile, compile, compileAll_congr ih]
    simp only [join_congr h]

end Monad

section Except

variable {α ε P : Type} {comparison : α → Except ε P} {combine : Connective → List P → P}
  {formula formula' : Formula α} {e : ε}

theorem discard_eq_error_iff {β : Type} {x : Except ε β} :
    Functor.discard x = .error e ↔ x = .error e := by
  cases x with
  | error e' =>
    rw [discard_eq_bind]
    simp [bind, Except.bind]
  | ok b =>
    rw [discard_eq_bind]
    simp [bind, Except.bind, pure, Except.pure]

theorem discard_eq_ok_iff {β : Type} {x : Except ε β} :
    Functor.discard x = .ok () ↔ ∃ b, x = .ok b := by
  rw [discard_eq_bind, Except.bind_eq_ok_iff]
  simp only [Except.pure_eq_ok_iff, and_true]

theorem compile_eq_error_iff :
    formula.compile comparison combine = .error e ↔
      ∃ before a after, formula.atoms = before ++ a :: after ∧
        (∀ b ∈ before, ∃ predicate, comparison b = .ok predicate) ∧ comparison a = .error e := by
  rw [← discard_eq_error_iff, discard_compile, Except.forM_eq_error_iff]
  simp only [discard_eq_ok_iff, discard_eq_error_iff]

theorem compile_eq_ok_none_of_compileAll_eq_ok_nil {children : List (Formula α)}
    (h : compileAll comparison combine children = .ok []) :
    ∀ child ∈ children, child.compile comparison combine = .ok none := by
  induction children with
  | nil => simp
  | cons child children ih =>
    rw [compileAll, Except.bind_eq_ok_iff] at h
    rcases h with ⟨predicate, hchild, hchildren⟩
    cases predicate with
    | none =>
      rw [List.forall_mem_cons]
      exact ⟨hchild, ih hchildren⟩
    | some predicate =>
      rw [Except.bind_eq_ok_iff] at hchildren
      rcases hchildren with ⟨_, _, hcons⟩
      cases hcons

theorem compile_eq_ok_none_iff :
    formula.compile comparison combine = .ok none ↔ formula.isEmpty := by
  constructor
  · intro h
    induction formula with
    | atom a =>
      rw [compile, Except.bind_eq_ok_iff] at h
      rcases h with ⟨_, _, hsome⟩
      cases hsome
    | group connective children ih =>
      rw [compile, Except.bind_eq_ok_iff] at h
      rcases h with ⟨predicates, hchildren, hjoin⟩
      rw [Except.pure_eq_ok_iff, join_eq_none_iff] at hjoin
      rw [hjoin] at hchildren
      rw [isEmpty_group, List.all_eq_true]
      intro child hchild
      apply ih child hchild
      exact compile_eq_ok_none_of_compileAll_eq_ok_nil hchildren child hchild
  · apply compile_of_isEmpty

end Except

section Recording

variable {α ε P σ : Type} {comparison : α → Except ε P} {combine : Connective → List P → P}

def recorded (comparison : α → Except ε P) (a : α) : ExceptT ε (StateM (List α)) P :=
  ExceptT.mk fun record => (comparison a, record ++ [a])

theorem run_bind_of_run_eq_ok {β : Type} {x : ExceptT ε (StateM σ) α}
    {f : α → ExceptT ε (StateM σ) β} {s s' : σ} {a : α} (h : StateT.run x.run s = (.ok a, s')) :
    StateT.run (x >>= f).run s = StateT.run (f a).run s' := by
  rw [ExceptT.run_bind, StateT.run_bind, h]
  rfl

theorem run_bind_of_run_eq_error {β : Type} {x : ExceptT ε (StateM σ) α}
    {f : α → ExceptT ε (StateM σ) β} {s s' : σ} {e : ε} (h : StateT.run x.run s = (.error e, s')) :
    StateT.run (x >>= f).run s = (.error e, s') := by
  rw [ExceptT.run_bind, StateT.run_bind, h]
  rfl

theorem run_compileAll_recorded {children : List (Formula α)}
    (h : ∀ child ∈ children, ∀ record, ∃ calls, calls ⊆ child.atoms ∧
      StateT.run (child.compile (recorded comparison) combine).run record =
        (child.compile comparison combine, record ++ calls))
    (record : List α) :
    ∃ calls, calls ⊆ children.flatMap atoms ∧
      StateT.run (compileAll (recorded comparison) combine children).run record =
        (compileAll comparison combine children, record ++ calls) := by
  induction children generalizing record with
  | nil =>
    refine ⟨[], List.nil_subset _, ?_⟩
    rw [List.append_nil]
    rfl
  | cons child children ih =>
    rw [List.forall_mem_cons] at h
    rcases h.1 record with ⟨calls, hcalls, hchild⟩
    rcases ih h.2 (record ++ calls) with ⟨calls', hcalls', hchildren⟩
    rw [List.append_assoc] at hchildren
    rw [List.flatMap_cons, compileAll, compileAll]
    cases hresult : child.compile comparison combine with
    | error e =>
      rw [hresult] at hchild
      refine ⟨calls, List.subset_append_of_subset_left _ hcalls, ?_⟩
      exact run_bind_of_run_eq_error hchild
    | ok predicate =>
      rw [hresult] at hchild
      refine ⟨calls ++ calls', List.append_subset.mpr ⟨List.subset_append_of_subset_left _ hcalls,
        List.subset_append_of_subset_right _ hcalls'⟩, ?_⟩
      rw [run_bind_of_run_eq_ok hchild]
      cases predicate with
      | none => exact hchildren
      | some predicate =>
        cases hresults : compileAll comparison combine children with
        | error e =>
          rw [hresults] at hchildren
          exact run_bind_of_run_eq_error hchildren
        | ok predicates =>
          rw [hresults] at hchildren
          exact run_bind_of_run_eq_ok hchildren

theorem run_compile_recorded (formula : Formula α) (record : List α) :
    ∃ calls, calls ⊆ formula.atoms ∧
      StateT.run (formula.compile (recorded comparison) combine).run record =
        (formula.compile comparison combine, record ++ calls) := by
  induction formula generalizing record with
  | atom a =>
    have hatom : StateT.run (recorded comparison a).run record = (comparison a, record ++ [a]) := rfl
    refine ⟨[a], by rw [atoms_atom]; exact List.Subset.refl _, ?_⟩
    rw [compile, compile]
    cases hresult : comparison a with
    | error e =>
      rw [hresult] at hatom
      exact run_bind_of_run_eq_error hatom
    | ok predicate =>
      rw [hresult] at hatom
      exact run_bind_of_run_eq_ok hatom
  | group connective children ih =>
    rcases run_compileAll_recorded ih record with ⟨calls, hcalls, hchildren⟩
    refine ⟨calls, by rwa [atoms_group], ?_⟩
    rw [compile, compile]
    cases hresults : compileAll comparison combine children with
    | error e =>
      rw [hresults] at hchildren
      exact run_bind_of_run_eq_error hchildren
    | ok predicates =>
      rw [hresults] at hchildren
      exact run_bind_of_run_eq_ok hchildren

end Recording

end Criteria.Formula
