import Criteria.Binary64.Basic

/-!
This module contains JSON values.
-/

namespace Criteria

/--
A JSON value. Objects keep the order of their members and may repeat a key. A string is `none` if its
escapes name half of a surrogate pair, since no text has such a character.
-/
inductive Json where
  | null
  | bool (b : Bool)
  | int (n : Int)
  | float (x : Binary64)
  | string (text : Option String)
  | array (items : List Json)
  | object (members : List (Option String × Json))

namespace Json

def member? (members : List (Option String × Json)) (key : String) : Option (Option Json) :=
  match members.filter fun member => member.1 = some key with
  | [] => some none
  | [member] => some (some member.2)
  | _ => none

def readOr {α : Type} (default : α) (read : Json → Option α) : Option Json → Option α
  | none => some default
  | some json => read json

def bool? : Json → Option Bool
  | bool b => some b
  | _ => none

def word? : Json → Option UInt64
  | int n => if 0 ≤ n ∧ n.toNat < UInt64.size then some (UInt64.ofNat n.toNat) else none
  | _ => none

def optionalWord? : Json → Option (Option UInt64)
  | null => some none
  | json => json.word?.map some

def name? : Json → Option String
  | string text => text
  | object [(key, null)] => key
  | _ => none

end Json

end Criteria
