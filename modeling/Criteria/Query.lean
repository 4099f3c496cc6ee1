import Criteria.Backend
import Criteria.Filter.Condition

/-!
This module contains queries. Conditions may be added to a query at any time. Its aggregates, its sort order
and its page are set at most once.
-/

namespace Criteria

/--
A query within a scope of type `S`, which is a matter of the backend.
-/
structure Query (R S : Type) where
  scope : S
  conditions : List (Condition R) := []
  aggregates : Option (AggregateList R) := none
  sort : Option (SortOrder R) := none
  page : Option Page := none

inductive QueryMode where
  | rows
  | aggregates
  deriving DecidableEq

namespace Query

variable {R S : Type}

def start (scope : S) : Query R S :=
  { scope }

def isSet (query : Query R S) : Slot → Bool
  | .aggregates => query.aggregates.isSome
  | .sort => query.sort.isSome
  | .page => query.page.isSome

abbrev Change (R S : Type) := EStateM Error (Query R S)

def requireUnset (slot : Slot) : Change R S Unit := do
  if (← get).isSet slot then
    throw (.alreadySet slot)

def addCondition (condition : Condition R) : Change R S Unit :=
  modify fun query => { query with conditions := query.conditions ++ [condition] }

def addFilter (settings : Settings) (registry : Registry R) (text : String) : Change R S Unit := do
  addCondition (← MonadExcept.ofExcept (Condition.ofFilter settings registry text))

def setAggregates (aggregates : AggregateList R) : Change R S Unit := do
  requireUnset .aggregates
  MonadExcept.ofExcept aggregates.validate
  modify fun query => { query with aggregates := some aggregates }

def setSort (sort : SortOrder R) : Change R S Unit := do
  requireUnset .sort
  modify fun query => { query with sort := some sort }

def setPage (page : Page) : Change R S Unit := do
  requireUnset .page
  modify fun query => { query with page := some page }

def condition (query : Query R S) : Condition R :=
  .group .and query.conditions

def aggregatesIn (query : Query R S) : QueryMode → AggregateList R
  | .rows => []
  | .aggregates => query.aggregates.getD []

/--
The page that applies in a mode. Aggregates are computed over all records.
-/
def pageIn (query : Query R S) : QueryMode → Option Page
  | .rows => query.page
  | .aggregates => none

def compile (backend : Backend R) (query : Query R backend.Scope) (mode : QueryMode) :
    Except Error backend.CompiledQuery := do
  let predicate ← Condition.compile query.condition backend
  let aggregates ← (query.aggregatesIn mode).mapM backend.aggregate
  backend.compile query.scope predicate aggregates (query.pageIn mode)

def compileSort (backend : Backend R) (query : Query R backend.Scope) :
    Except Error (Option backend.CompiledSort) :=
  match query.sort with
  | none => return none
  | some sort => return some (← backend.sort sort)

end Query

inductive QueryStep (R : Type) where
  | addCondition (condition : Condition R)
  | addFilter (settings : Settings) (registry : Registry R) (text : String)
  | setAggregates (aggregates : AggregateList R)
  | setSort (sort : SortOrder R)
  | setPage (page : Page)

namespace QueryStep

variable {R S : Type}

def perform : QueryStep R → Query.Change R S Unit
  | addCondition condition => Query.addCondition condition
  | addFilter settings registry text => Query.addFilter settings registry text
  | setAggregates aggregates => Query.setAggregates aggregates
  | setSort sort => Query.setSort sort
  | setPage page => Query.setPage page

def apply (query : Query R S) (step : QueryStep R) : Except Error (Query R S) :=
  match step.perform.run query with
  | .ok _ query => .ok query
  | .error error _ => .error error

def next (query : Query R S) (step : QueryStep R) : Query R S :=
  match step.perform.run query with
  | .ok _ query => query
  | .error _ query => query

/--
Take steps in turn. Those that fail do not end the run.
-/
def run (query : Query R S) (steps : List (QueryStep R)) : Query R S :=
  steps.foldl next query

end QueryStep

end Criteria
