import Criteria.Builder
import Criteria.Filter.Grammar
import Criteria.Filter.Printer
import Criteria.Outline
import Criteria.Pattern.Source
import Criteria.Settings.Yaml
import Criteria.Sql.Backend
import Criteria.Sql.Reader
import Criteria.Sql.Truth
import Criteria.Proofs.Backend
import Criteria.Proofs.Except
import Criteria.Proofs.Formula.Compile
import Criteria.Proofs.Formula.Effect
import Criteria.Proofs.Formula.Shape
import Criteria.Proofs.Formula.Simplification
import Criteria.Proofs.Formula.Regrouping
import Criteria.Proofs.Leaf
import Criteria.Proofs.Memory.Predicate
import Criteria.Proofs.Sql.Placeholder
import Criteria.Proofs.Sql.Parenthesis
import Criteria.Proofs.Sql.Rendering
import Criteria.Proofs.Sql.Statement
import Criteria.Proofs.Sql.Truth
import Criteria.Proofs.Filter.Comparison
import Criteria.Proofs.Filter.Separator
import Criteria.Proofs.Filter.Completeness
import Criteria.Proofs.Filter.Writing
import Criteria.Proofs.Filter.RoundTrip
import Criteria.Proofs.Filter.Locality
import Criteria.Proofs.Filter.NullCheck
import Criteria.Proofs.Filter.Preparation
import Criteria.Proofs.Filter.Completion
import Criteria.Proofs.Pattern.Source
import Criteria.Proofs.Binary64.Rounding
import Criteria.Proofs.Number
import Criteria.Proofs.Formula.Traverse
import Criteria.Proofs.Condition
import Criteria.Proofs.Memory.Selection
import Criteria.Proofs.Pattern.Scan
import Criteria.Proofs.Query
import Criteria.Proofs.Filter.Restriction
import Criteria.Proofs.Filter.Integer
import Criteria.Proofs.Value
import Criteria.Proofs.Filter.Idempotence
import Criteria.Proofs.Filter.Viability
import Criteria.Proofs.Sort.Order
import Criteria.Proofs.Memory.Aggregation
import Criteria.Proofs.Memory.Sum
import Criteria.Proofs.Memory.Extreme
import Criteria.Proofs.Filter.Conversion
import Criteria.Proofs.Filter.Wildcard
import Criteria.Proofs.Filter.Regrouping
import Criteria.Proofs.Filter.Position
import Criteria.Proofs.Registry
import Criteria.Proofs.Filter.Traversal
import Criteria.Proofs.Filter.Rewriting
import Criteria.Proofs.Filter.Validation
import Criteria.Proofs.Builder
import Criteria.Proofs.Page
import Criteria.Proofs.Registration
import Criteria.Proofs.Sort.Reading
