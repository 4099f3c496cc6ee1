import Criteria.Condition
import Criteria.Filter.Argument
import Criteria.Filter.NullCheck
import Criteria.Filter.Parser
import Criteria.Registry

/-!
This module contains the way from a filter text to a condition: the text is prepared and parsed, and every
comparison of the expression is replaced by a leaf.
-/

namespace Criteria

def Filter.Comparison.toLeaf {R : Type} (settings : Settings) (registry : Registry R)
    (comparison : Filter.Comparison) : Except Error (Leaf R) := do
  let field ← registry.lookup comparison.selector
  let operator ← Operator.ofSymbol comparison.symbol
  let converted ← Filter.convert settings field operator comparison.arguments
  Leaf.make field converted.operator converted.operands

namespace Condition

variable {R : Type}

def ofExpression (settings : Settings) (registry : Registry R) (expression : Filter.Expression) :
    Except Error (Condition R) :=
  Formula.traverse (Filter.Comparison.toLeaf settings registry) expression

/--
The condition that a filter text stands for. A text of nothing but blanks and separators places no restriction.
-/
def ofFilter (settings : Settings) (registry : Registry R) (text : String) :
    Except Error (Condition R) := do
  let prepared := Filter.prepare text
  if prepared.toList.all Text.isBlank then
    return unrestricted
  let expression ← (Filter.parse prepared).mapError .malformedFilter
  ofExpression settings registry expression

end Condition

end Criteria
