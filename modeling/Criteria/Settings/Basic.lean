/-!
This module contains the settings of the filter language.
-/

namespace Criteria

/--
Which equalities of the filter language are taken for something else: those with a wildcard for patterns,
and those with the word `null` for null checks.
-/
structure Settings where
  wildcardEquality : Bool := true
  nullLiteral : Bool := true
  deriving DecidableEq, Inhabited

end Criteria
