/-!
This module contains timestamps, which count milliseconds from the first moment of 1970 in universal time.
-/

namespace Criteria

/--
A moment, as the number of milliseconds since the first of 1970. It is negative before.
-/
structure Timestamp where
  millis : Int64
  deriving DecidableEq, Inhabited

namespace Timestamp

def ofSeconds (seconds : Int64) : Timestamp :=
  ⟨seconds * 1000⟩

def compare (a b : Timestamp) : Ordering :=
  Ord.compare a.millis.toInt b.millis.toInt

end Timestamp

end Criteria
