import Criteria.Registry
import Criteria.Sort.Stable

/-!
This module contains sort orders, which are lists of fields with directions. The first field that tells
two records apart decides. Records whose field has no value come last in either direction.
-/

namespace Criteria

inductive Direction where
  | ascending
  | descending
  deriving DecidableEq, Inhabited

namespace Direction

def toText : Direction → String
  | ascending => "asc"
  | descending => "desc"

def ofText? (name : String) : Option Direction :=
  [ascending, descending].find? fun direction => direction.toText = name

def isAscending : Direction → Bool
  | ascending => true
  | descending => false

def apply : Direction → Ordering → Ordering
  | ascending, o => o
  | descending, o => o.swap

/--
Order what two fields hold. A missing value comes after every other, and values that are not comparable
count as equal.
-/
def compareValues (direction : Direction) : Option Value → Option Value → Ordering
  | none, none => .eq
  | none, some _ => .gt
  | some _, none => .lt
  | some a, some b => ((a.compare b).map direction.apply).getD .eq

end Direction

structure SortKey (R : Type) where
  field : Field R
  direction : Direction

namespace SortKey

variable {R : Type}

def compare (key : SortKey R) (a b : R) : Ordering :=
  key.direction.compareValues (key.field.read a) (key.field.read b)

def same (a b : SortKey R) : Bool :=
  a.field.same b.field && a.direction = b.direction

/--
Read a sort key: the name of a field, and before it a plus or a minus for the direction. Blanks may stand
around either.
-/
def read (registry : Registry R) (input : String) (text : List Char) : Except Error (SortKey R) :=
  let lookup (name : List Char) (direction : Direction) : Except Error (SortKey R) := do
    return ⟨← registry.lookup (String.ofList (Text.trim name)), direction⟩
  match Text.trim text with
  | [] => .error (.emptySortKey input)
  | '-' :: name => lookup name .descending
  | '+' :: name => lookup name .ascending
  | name => lookup name .ascending

end SortKey

abbrev SortOrder (R : Type) := List (SortKey R)

namespace SortOrder

variable {R : Type}

def compare (order : SortOrder R) (a b : R) : Ordering :=
  match order with
  | [] => .eq
  | key :: keys => (key.compare a b).then (SortOrder.compare keys a b)

def read (registry : Registry R) (input : String) : Except Error (SortOrder R) :=
  (input.toList.splitOn ',').mapM (SortKey.read registry input)

def sort (order : SortOrder R) (records : List R) : List R :=
  stableSort order.compare records

def same (a b : SortOrder R) : Bool :=
  a.isEqv b SortKey.same

end SortOrder

end Criteria
