import Criteria.Builder
import Criteria.Proofs.Leaf
import Criteria.Proofs.Registry

/-!
This module contains the proof that a run of steps builds the group of what the steps add, with a group for every scope,
unless one of them fails. Then the first that does decides the error, whether it is within a scope or not, and no step
after it has an effect.
-/

namespace Criteria

variable {R : Type} {registry : Registry R} {e : Error}

namespace BuilderStep

@[elab_as_elim, induction_eliminator]
theorem ind {motive : BuilderStep R → Prop}
    (loose : ∀ name operator operands, motive (.loose name operator operands))
    (typed : ∀ type handle operator operands, motive (.typed type handle operator operands))
    (condition : ∀ appended, motive (.condition appended))
    (nested : ∀ connective steps, (∀ step ∈ steps, motive step) → motive (.nested connective steps))
    (step : BuilderStep R) : motive step :=
  match step with
  | .loose name operator operands => loose name operator operands
  | .typed type handle operator operands => typed type handle operator operands
  | .condition appended => condition appended
  | .nested connective steps =>
    nested connective steps fun step _ => ind loose typed condition nested step

/--
What a step adds: the leaf of its comparison, the condition at hand or the group of what the steps within its scope add,
even if there are none.
-/
inductive Adds (registry : Registry R) : BuilderStep R → Condition R → Prop where
  | loose {field : Field R} {operator : Operator} {operands : List Value} {leaf : Leaf R} :
      field ∈ registry.fields → Leaf.make field operator operands = .ok leaf →
      Adds registry (.loose field.name operator operands) (.atom leaf)
  | typed {type : ValueType} {handle : Handle R type} {operator : Operator} {operands : List Value}
      {leaf : Leaf R} : Leaf.make handle.field operator operands = .ok leaf →
      Adds registry (.typed type handle operator operands) (.atom leaf)
  | condition {appended : Condition R} : Adds registry (.condition appended) appended
  | nested {connective : Connective} {steps : List (BuilderStep R)} {children : List (Condition R)} :
      List.Forall₂ (Adds registry) steps children →
      Adds registry (.nested connective steps) (.group connective children)

/--
What a step fails with: that no field has the name, else what is wrong with its comparison. A scope fails as the first of
its steps does that fails.
-/
inductive Fails (registry : Registry R) : BuilderStep R → Error → Prop where
  | unknown {name : String} {operator : Operator} {operands : List Value} :
      registry.contains name = false →
      Fails registry (.loose name operator operands) (.unknownField name)
  | loose {field : Field R} {operator : Operator} {operands : List Value} {e : Error} :
      field ∈ registry.fields → Leaf.make field operator operands = .error e →
      Fails registry (.loose field.name operator operands) e
  | typed {type : ValueType} {handle : Handle R type} {operator : Operator} {operands : List Value}
      {e : Error} : Leaf.make handle.field operator operands = .error e →
      Fails registry (.typed type handle operator operands) e
  | nested {connective : Connective} {before after : List (BuilderStep R)} {step : BuilderStep R}
      {e : Error} : (∀ earlier ∈ before, ∃ condition, Adds registry earlier condition) →
      Fails registry step e → Fails registry (.nested connective (before ++ step :: after)) e

theorem adds_nested_iff {connective : Connective} {steps : List (BuilderStep R)}
    {condition : Condition R} :
    Adds registry (.nested connective steps) condition ↔
      ∃ children, List.Forall₂ (Adds registry) steps children ∧
        condition = .group connective children := by
  constructor
  · intro h
    cases h with
    | nested hchildren => exact ⟨_, hchildren, rfl⟩
  · intro h
    rcases h with ⟨children, hchildren, rfl⟩
    exact .nested hchildren

theorem fails_nested_iff {connective : Connective} {steps : List (BuilderStep R)} :
    Fails registry (.nested connective steps) e ↔
      ∃ before step after, steps = before ++ step :: after ∧
        (∀ earlier ∈ before, ∃ condition, Adds registry earlier condition) ∧
        Fails registry step e := by
  constructor
  · intro h
    cases h with
    | nested hbefore hstep => exact ⟨_, _, _, rfl, hbefore, hstep⟩
  · intro h
    rcases h with ⟨before, step, after, rfl, hbefore, hstep⟩
    exact .nested hbefore hstep

def outcome (registry : Registry R) : BuilderStep R → Except Error (Condition R)
  | loose name operator operands => do Condition.leaf (← registry.lookup name) operator operands
  | typed _ handle operator operands => Condition.leaf handle.field operator operands
  | condition appended => .ok appended
  | nested connective steps => ((Builder.start registry connective).run steps).build

end BuilderStep

namespace Builder

theorem step_eq (builder : Builder R) (step : BuilderStep R) :
    builder.step step = builder.push (step.outcome builder.registry) := by
  cases step <;> rw [Builder.step] <;> rfl

theorem run_eq (builder : Builder R) (steps : List (BuilderStep R)) :
    builder.run steps =
      { builder with
        children := do
          let before ← builder.children
          let added ← steps.mapM (BuilderStep.outcome builder.registry)
          return before ++ added } := by
  induction steps generalizing builder with
  | nil => simp [run]
  | cons step steps ih =>
    rw [run, ih, step_eq, List.mapM_cons]
    simp only [push, bind_assoc, pure_bind, List.append_assoc, List.singleton_append]

theorem run_append (builder : Builder R) (steps after : List (BuilderStep R)) :
    builder.run (steps ++ after) = (builder.run steps).run after := by
  induction steps generalizing builder with
  | nil => rw [List.nil_append, run]
  | cons step steps ih => rw [List.cons_append, run, run, ih]

theorem run_of_children_eq_error {builder : Builder R} (h : builder.children = .error e)
    (steps : List (BuilderStep R)) : builder.run steps = builder := by
  rw [run_eq, h]
  cases builder
  cases h
  rfl

theorem build_eq_error_iff {builder : Builder R} :
    builder.build = .error e ↔ builder.children = .error e := by
  unfold build
  rw [Except.bind_eq_error_iff]
  simp [pure, Except.pure]

theorem step_typed {builder : Builder R} {type : ValueType} {name : String} {handle : Handle R type}
    (h : builder.registry.typed type name = .ok handle) (operator : Operator)
    (operands : List Value) :
    builder.step (.typed type handle operator operands) =
      builder.step (.loose name operator operands) := by
  rw [step_eq, step_eq, BuilderStep.outcome, BuilderStep.outcome, Registry.lookup_of_typed h]
  rfl

end Builder

namespace BuilderStep

theorem outcome_nested (connective : Connective) (steps : List (BuilderStep R)) :
    (nested connective steps).outcome registry = do
      return .group connective (← steps.mapM (outcome registry)) := by
  rw [outcome, Builder.run_eq]
  unfold Builder.build Builder.start
  cases steps.mapM (outcome registry) <;> rfl

theorem outcome_eq_ok_iff {step : BuilderStep R} {condition : Condition R} :
    step.outcome registry = .ok condition ↔ step.Adds registry condition := by
  induction step generalizing condition with
  | loose name operator operands =>
    rw [outcome, Except.bind_eq_ok_iff]
    simp only [Registry.lookup_eq_ok_iff, Condition.leaf_eq_ok_iff]
    constructor
    · intro h
      rcases h with ⟨field, ⟨hfield, rfl⟩, leaf, hmake, rfl⟩
      exact .loose hfield hmake
    · intro h
      cases h with
      | loose hfield hmake => exact ⟨_, ⟨hfield, rfl⟩, _, hmake, rfl⟩
  | typed type handle operator operands =>
    rw [outcome, Condition.leaf_eq_ok_iff]
    constructor
    · intro h
      rcases h with ⟨leaf, hmake, rfl⟩
      exact .typed hmake
    · intro h
      cases h with
      | typed hmake => exact ⟨_, hmake, rfl⟩
  | condition appended =>
    rw [outcome, Except.ok.injEq]
    constructor
    · intro h
      rw [h]
      exact .condition
    · intro h
      cases h
      rfl
  | nested connective steps ih =>
    have hsteps : ∀ children, steps.mapM (outcome registry) = .ok children ↔
        List.Forall₂ (Adds registry) steps children := by
      intro children
      exact Except.mapM_eq_ok_iff_of_mem fun step hstep _ => ih step hstep
    rw [outcome_nested, Except.bind_eq_ok_iff, adds_nested_iff]
    simp only [hsteps, Except.pure_eq_ok_iff]
    exact exists_congr fun _ => and_congr_right fun _ => eq_comm

theorem outcome_eq_error_iff {step : BuilderStep R} :
    step.outcome registry = .error e ↔ step.Fails registry e := by
  induction step with
  | loose name operator operands =>
    rw [outcome, Except.bind_eq_error_iff]
    simp only [Registry.lookup_eq_ok_iff, Registry.lookup_eq_error_iff, Condition.leaf_eq_error_iff]
    constructor
    · intro h
      rcases h with ⟨hname, rfl⟩ | ⟨field, ⟨hfield, rfl⟩, hmake⟩
      · exact .unknown hname
      · exact .loose hfield hmake
    · intro h
      cases h with
      | unknown hname => exact .inl ⟨hname, rfl⟩
      | loose hfield hmake => exact .inr ⟨_, ⟨hfield, rfl⟩, hmake⟩
  | typed type handle operator operands =>
    rw [outcome, Condition.leaf_eq_error_iff]
    constructor
    · exact .typed
    · intro h
      cases h with
      | typed hmake => exact hmake
  | condition appended =>
    rw [outcome]
    constructor
    · intro h
      cases h
    · intro h
      cases h
  | nested connective steps ih =>
    rw [outcome_nested, Except.bind_eq_error_iff, fails_nested_iff]
    simp only [Except.mapM_eq_error_iff, outcome_eq_ok_iff]
    constructor
    · intro h
      rcases h with ⟨before, step, after, rfl, hbefore, hstep⟩ | ⟨_, _, h⟩
      · exact ⟨before, step, after, rfl, hbefore, (ih step List.mem_append_cons_self).mp hstep⟩
      · cases h
    · intro h
      rcases h with ⟨before, step, after, rfl, hbefore, hstep⟩
      exact .inl ⟨before, step, after, rfl, hbefore,
        (ih step List.mem_append_cons_self).mpr hstep⟩

end BuilderStep

namespace Builder

theorem build_run_start_eq_ok_iff {connective : Connective} {steps : List (BuilderStep R)}
    {condition : Condition R} :
    ((start registry connective).run steps).build = .ok condition ↔
      (BuilderStep.nested connective steps).Adds registry condition := by
  rw [← BuilderStep.outcome_eq_ok_iff, BuilderStep.outcome]

theorem build_run_start_eq_error_iff {connective : Connective} {steps : List (BuilderStep R)} :
    ((start registry connective).run steps).build = .error e ↔
      (BuilderStep.nested connective steps).Fails registry e := by
  rw [← BuilderStep.outcome_eq_error_iff, BuilderStep.outcome]

/--
What is built in a run of steps is the group of what each of them adds, in order, if none of them fails. Else the first that
fails decides the error, and steps after it change nothing. A comparison of a field that is at hand is as one of the
field that is looked up by name.
-/
theorem build_run_iff_adds_and_iff_fails (registry : Registry R) (connective : Connective)
    (steps : List (BuilderStep R)) :
    (∀ condition, ((start registry connective).run steps).build = .ok condition ↔
      ∃ children, List.Forall₂ (BuilderStep.Adds registry) steps children ∧
        condition = .group connective children) ∧
    (∀ e, ((start registry connective).run steps).build = .error e ↔
      ∃ before step after, steps = before ++ step :: after ∧
        (∀ earlier ∈ before, ∃ condition, BuilderStep.Adds registry earlier condition) ∧
        BuilderStep.Fails registry step e) ∧
    (∀ e, ((start registry connective).run steps).build = .error e →
      ∀ after, (start registry connective).run (steps ++ after) =
        (start registry connective).run steps) ∧
    ∀ (type : ValueType) (name : String) (handle : Handle R type),
      registry.typed type name = .ok handle →
      ∀ builder : Builder R, builder.registry = registry →
        ∀ (operator : Operator) (operands : List Value),
          builder.step (.typed type handle operator operands) =
            builder.step (.loose name operator operands) := by
  refine ⟨?_, ?_, ?_, ?_⟩
  · intro condition
    rw [build_run_start_eq_ok_iff, BuilderStep.adds_nested_iff]
  · intro e
    rw [build_run_start_eq_error_iff, BuilderStep.fails_nested_iff]
  · intro e h after
    rw [run_append, run_of_children_eq_error (build_eq_error_iff.mp h)]
  · intro type name handle h builder hregistry operator operands
    rw [← hregistry] at h
    exact step_typed h operator operands

example :
    ((start ⟨[.cell], by simp⟩ .and).run [.nested .or [],
        .nested .or [.loose "cell" .isNull [], .nested .and [.loose "cell" .isIn []]],
        .nested .or [.loose "pages" .isNull []], .loose "price" .isNull []]).build =
      .error (.wrongArity "cell" .isIn 0) :=
  rfl

end Builder

end Criteria
