import Criteria.Memory.Backend
import Criteria.Proofs.Except
import Criteria.Proofs.Leaf

/-!
This module contains what becomes of a query in a run of steps. A step that sets a part of the query has an effect
only as long as this part has not been set, so a run leaves in each part what was put there first.
-/

namespace Criteria

variable {R S : Type}

namespace Query

theorem requireUnset_bind_run (slot : Slot) (rest : Change R S Unit) (query : Query R S) :
    (requireUnset slot >>= fun _ => rest).run query =
      if query.isSet slot then .error (.alreadySet slot) query else rest.run query := by
  simp only [requireUnset, EStateM.run_bind, EStateM.run_get]
  cases query.isSet slot with
  | true => simp [EStateM.run_throw]
  | false => simp

theorem addFilter_run (settings : Settings) (registry : Registry R) (text : String) (query : Query R S) :
    (addFilter settings registry text).run query =
      match Condition.ofFilter settings registry text with
      | .ok condition => (addCondition condition).run query
      | .error error => .error error query := by
  rw [addFilter, EStateM.run_ofExcept_bind]
  cases Condition.ofFilter settings registry text <;> rfl

theorem setAggregates_run (aggregates : AggregateList R) (query : Query R S) :
    (setAggregates aggregates).run query =
      if query.isSet .aggregates then .error (.alreadySet .aggregates) query
      else match aggregates.validate with
        | .ok _ => .ok () { query with aggregates := some aggregates }
        | .error error => .error error query := by
  rw [setAggregates, requireUnset_bind_run, EStateM.run_ofExcept_bind]
  cases aggregates.validate <;> rfl

theorem setSort_run (sort : SortOrder R) (query : Query R S) :
    (setSort sort).run query =
      if query.isSet .sort then .error (.alreadySet .sort) query
      else .ok () { query with sort := some sort } := by
  rw [setSort, requireUnset_bind_run, EStateM.run_modify]

theorem setPage_run (page : Page) (query : Query R S) :
    (setPage page).run query =
      if query.isSet .page then .error (.alreadySet .page) query
      else .ok () { query with page := some page } := by
  rw [setPage, requireUnset_bind_run, EStateM.run_modify]

end Query

theorem Aggregate.validate_eq_error_iff {aggregate : Aggregate R} {error : Error} :
    aggregate.validate = .error error ↔
      ∃ expected, aggregate.function.expectation? = some expected ∧
        expected.admits aggregate.field.type = false ∧
        error = .typeMismatch aggregate.field.name aggregate.field.type expected := by
  unfold validate
  cases hexpected : aggregate.function.expectation? with
  | none => simp
  | some expected =>
    cases hadmits : expected.admits aggregate.field.type with
    | true => simp [hadmits]
    | false => simpa [hadmits] using eq_comm

namespace QueryStep

def added? : QueryStep R → Option (Condition R)
  | addCondition condition => some condition
  | addFilter settings registry text => (Condition.ofFilter settings registry text).toOption
  | _ => none

def aggregates? : QueryStep R → Option (AggregateList R)
  | setAggregates aggregates => some aggregates
  | _ => none

def sort? : QueryStep R → Option (SortOrder R)
  | setSort sort => some sort
  | _ => none

def page? : QueryStep R → Option Page
  | setPage page => some page
  | _ => none

def slot? : QueryStep R → Option Slot
  | setAggregates _ => some .aggregates
  | setSort _ => some .sort
  | setPage _ => some .page
  | _ => none

inductive Fails (query : Query R S) : QueryStep R → Error → Prop where
  | filter {settings : Settings} {registry : Registry R} {text : String} {error : Error} :
      Condition.ofFilter settings registry text = .error error →
        Fails query (.addFilter settings registry text) error
  | alreadySet {step : QueryStep R} {slot : Slot} :
      step.slot? = some slot → query.isSet slot → Fails query step (.alreadySet slot)
  | typeMismatch {before after : AggregateList R} {aggregate : Aggregate R} {expected : Expectation} :
      ¬query.isSet .aggregates → (∀ earlier ∈ before, earlier.validate = .ok ()) →
        aggregate.function.expectation? = some expected →
        expected.admits aggregate.field.type = false →
        Fails query (.setAggregates (before ++ aggregate :: after))
          (.typeMismatch aggregate.field.name aggregate.field.type expected)

variable {query after : Query R S} {step : QueryStep R} {error : Error}

theorem fails_iff_of_slot? {slot : Slot} (hslot : step.slot? = some slot) (hset : query.isSet slot) :
    Fails query step error ↔ error = .alreadySet slot := by
  constructor
  · intro h
    cases h with
    | filter => cases hslot
    | alreadySet hslot' _ =>
      rw [hslot] at hslot'
      cases hslot'
      rfl
    | typeMismatch hunset =>
      cases hslot
      exact absurd hset hunset
  · intro h
    subst h
    exact .alreadySet hslot hset

theorem isSet_of_fails (h : Fails query step error)
    (hfilter : ∀ settings registry text, step ≠ .addFilter settings registry text)
    (haggregates : step.aggregates? = none) : ∃ slot, step.slot? = some slot ∧ query.isSet slot := by
  cases h with
  | filter => exact absurd rfl (hfilter _ _ _)
  | alreadySet hslot hset => exact ⟨_, hslot, hset⟩
  | typeMismatch => cases haggregates

theorem fails_addFilter_iff {settings : Settings} {registry : Registry R} {text : String} :
    Fails query (.addFilter settings registry text) error ↔
      Condition.ofFilter settings registry text = .error error := by
  constructor
  · intro h
    cases h with
    | filter h => exact h
    | alreadySet hslot _ => cases hslot
  · exact .filter

theorem fails_setAggregates_iff {aggregates : AggregateList R} (hunset : ¬query.isSet .aggregates) :
    Fails query (.setAggregates aggregates) error ↔ aggregates.validate = .error error := by
  simp only [AggregateList.validate, List.forM_eq_forM, Except.forM_eq_error_iff,
    Aggregate.validate_eq_error_iff]
  constructor
  · intro h
    cases h with
    | alreadySet hslot hset =>
      cases hslot
      exact absurd hset hunset
    | @typeMismatch before after aggregate expected _ hbefore hexpected hadmits =>
      exact ⟨before, aggregate, after, rfl, hbefore, expected, hexpected, hadmits, rfl⟩
  · intro h
    rcases h with ⟨before, aggregate, after, rfl, hbefore, expected, hexpected, hadmits, rfl⟩
    exact .typeMismatch hunset hbefore hexpected hadmits

theorem perform_run_of_isSet {slot : Slot} (hslot : step.slot? = some slot) (hset : query.isSet slot) :
    step.perform.run query = .error (.alreadySet slot) query := by
  cases step with
  | addCondition | addFilter => cases hslot
  | setAggregates =>
    cases hslot
    exact (Query.setAggregates_run _ query).trans (if_pos hset)
  | setSort =>
    cases hslot
    exact (Query.setSort_run _ query).trans (if_pos hset)
  | setPage =>
    cases hslot
    exact (Query.setPage_run _ query).trans (if_pos hset)

theorem perform_run_eq_error_iff :
    step.perform.run query = .error error after ↔ Fails query step error ∧ after = query := by
  by_cases hset : ∃ slot, step.slot? = some slot ∧ query.isSet slot
  · rcases hset with ⟨slot, hslot, hset⟩
    rw [perform_run_of_isSet hslot hset, fails_iff_of_slot? hslot hset]
    simp [eq_comm]
  · -- From here on the part that the step is to set, if any, has not been set.
    have hunset : ∀ slot, step.slot? = some slot → ¬query.isSet slot := by simpa using hset
    cases step with
    | addCondition condition =>
      have hfails : ¬Fails query (.addCondition condition) error :=
        fun h => hset (isSet_of_fails h nofun rfl)
      simp [perform, Query.addCondition, hfails]
    | addFilter settings registry text =>
      rw [perform, Query.addFilter_run, fails_addFilter_iff]
      cases Condition.ofFilter settings registry text with
      | ok => simp [Query.addCondition]
      | error => simp [eq_comm]
    | setAggregates aggregates =>
      rw [perform, Query.setAggregates_run, if_neg (hunset _ rfl),
        fails_setAggregates_iff (hunset _ rfl)]
      cases aggregates.validate with
      | ok => simp
      | error => simp [eq_comm]
    | setSort sort =>
      have hfails : ¬Fails query (.setSort sort) error :=
        fun h => hset (isSet_of_fails h nofun rfl)
      simp [perform, Query.setSort_run, hunset _ rfl, hfails]
    | setPage page =>
      have hfails : ¬Fails query (.setPage page) error :=
        fun h => hset (isSet_of_fails h nofun rfl)
      simp [perform, Query.setPage_run, hunset _ rfl, hfails]

theorem next_eq (query : Query R S) (step : QueryStep R) :
    next query step =
      { scope := query.scope
        conditions := query.conditions ++ step.added?.toList
        aggregates := query.aggregates.or
          (step.aggregates?.filter fun aggregates => aggregates.validate.isOk)
        sort := query.sort.or step.sort?
        page := query.page.or step.page? } := by
  rcases query with ⟨scope, conditions, aggregates, sort, page⟩
  unfold next
  cases step with
  | addCondition condition =>
    simp [perform, Query.addCondition, added?, aggregates?, sort?, page?]
  | addFilter settings registry text =>
    rw [perform, Query.addFilter_run]
    cases h : Condition.ofFilter settings registry text with
    | ok => simp [Query.addCondition, added?, aggregates?, sort?, page?, h, Except.toOption]
    | error => simp [added?, aggregates?, sort?, page?, h, Except.toOption]
  | setAggregates offered =>
    rw [perform, Query.setAggregates_run]
    cases aggregates with
    | none =>
      cases h : offered.validate <;>
        simp [added?, aggregates?, sort?, page?, Query.isSet, Option.filter, h, Except.isOk, Except.toBool]
    | some => simp [added?, aggregates?, sort?, page?, Query.isSet]
  | setSort offered =>
    rw [perform, Query.setSort_run]
    cases sort <;> simp [added?, aggregates?, sort?, page?, Query.isSet]
  | setPage offered =>
    rw [perform, Query.setPage_run]
    cases page <;> simp [added?, aggregates?, sort?, page?, Query.isSet]

theorem run_eq (query : Query R S) (steps : List (QueryStep R)) :
    run query steps =
      { scope := query.scope
        conditions := query.conditions ++ steps.filterMap added?
        aggregates := query.aggregates.or
          ((steps.filterMap aggregates?).find? fun aggregates => aggregates.validate.isOk)
        sort := query.sort.or (steps.filterMap sort?).head?
        page := query.page.or (steps.filterMap page?).head? } := by
  induction steps generalizing query with
  | nil => simp [run]
  | cons step steps ih =>
    have hrun : run query (step :: steps) = run (next query step) steps := List.foldl_cons
    rw [hrun, ih, next_eq]
    -- What was there before the step comes first, then what the step sets, then the rest of the run.
    simp only [Option.or_assoc, List.append_assoc]
    congr 2
    · cases h : step.added? <;> simp [h]
    · cases h : step.aggregates? with
      | none => simp [h]
      | some aggregates =>
        cases hvalid : aggregates.validate.isOk <;> simp [h, Option.filter_some, hvalid]
    · cases h : step.sort? <;> simp [h]
    · cases h : step.page? <;> simp [h]

/--
After a run, the sort order and the page are the first ones that were to be set, and the aggregates are the first
ones that are valid. What fails, fails for the reasons that are listed, and leaves the query as it was. Two runs
that add the same conditions hand a backend the same scope and the same predicate in both modes.
-/
theorem run_sets_each_slot_once (backend : Backend R) (scope : backend.Scope)
    (steps : List (QueryStep R)) :
    let query := run (.start scope) steps
    query.scope = scope ∧
    query.conditions = steps.filterMap added? ∧
    query.sort = (steps.filterMap sort?).head? ∧
    query.page = (steps.filterMap page?).head? ∧
    query.aggregates = (steps.filterMap aggregates?).find? (fun aggregates => aggregates.validate.isOk) ∧
    (∀ step error after, step.perform.run query = .error error after ↔
      Fails query step error ∧ after = query) ∧
    ∀ steps' : List (QueryStep R), steps'.filterMap added? = steps.filterMap added? →
      ∀ either ∈ [query, run (.start scope) steps'], ∀ mode,
        either.compile backend mode = (do
          let predicate ← Condition.compile (.group .and (steps.filterMap added?)) backend
          let aggregates ← (either.aggregatesIn mode).mapM backend.aggregate
          backend.compile scope predicate aggregates (either.pageIn mode)) := by
  intro query
  have hquery : query = _ := run_eq (.start scope) steps
  refine ⟨?_, ?_, ?_, ?_, ?_, ?_, ?_⟩
  · simp [hquery, Query.start]
  · simp [hquery, Query.start]
  · simp [hquery, Query.start]
  · simp [hquery, Query.start]
  · simp [hquery, Query.start]
  · intro step error after
    exact perform_run_eq_error_iff
  · intro steps' hadded either heither mode
    have hscope : either.scope = scope ∧ either.conditions = steps.filterMap added? := by
      simp only [List.mem_cons, List.not_mem_nil, or_false] at heither
      rcases heither with rfl | rfl
      · simp [hquery, Query.start]
      · simp [run_eq, Query.start, hadded]
    unfold Query.compile Query.condition
    rw [hscope.1, hscope.2]

theorem run_sets_each_slot_once_cell :
    let backend := Memory.backend (Option Value)
    let sum : Aggregate (Option Value) := { function := .sum, field := .cell }
    let count : Aggregate (Option Value) := { function := .count, field := .cell }
    let condition : Condition (Option Value) := .atom ⟨.cell, .isNull, []⟩
    let steps : List (QueryStep (Option Value)) :=
      [.setAggregates [count, sum], .setPage (.first 2), .addCondition condition,
        .setAggregates [count], .setPage (.first 3)]
    let query := run (.start []) steps
    (query.page = some (.first 2) ∧ query.aggregates = some [count]) ∧
      (QueryStep.setAggregates [sum]).perform.run query = .error (.alreadySet .aggregates) query ∧
      ([.addCondition condition] : List (QueryStep (Option Value))).filterMap added? =
        steps.filterMap added? ∧
      query.compile backend .aggregates = (do
        let predicate ← Condition.compile (.group .and [condition]) backend
        backend.compile [] predicate [count] none) := by
  intro backend sum count condition steps query
  rcases run_sets_each_slot_once backend [] steps with
    ⟨_, _, _, hpage, haggregates, hfails, hcompile⟩
  have haggregates : query.aggregates = some [count] := haggregates
  have hset : query.isSet .aggregates := by
    unfold Query.isSet
    rw [haggregates]
    rfl
  refine ⟨⟨hpage, haggregates⟩, ?_, rfl, ?_⟩
  · rw [hfails]
    exact ⟨.alreadySet rfl hset, rfl⟩
  · rw [hcompile [.addCondition condition] rfl query (by simp [query]) .aggregates]
    unfold Query.aggregatesIn Query.pageIn
    rw [haggregates]
    rfl

end QueryStep

end Criteria
