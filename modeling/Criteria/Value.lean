import Criteria.Number
import Criteria.Timestamp.Basic

/-!
This module contains the values that fields have and that conditions compare them with. A field without
a value is `none` in `Option Value`. Only values of one type are comparable.
-/

namespace Criteria

inductive ValueType where
  | string
  | number
  | timestamp
  | enum
  | bool
  deriving DecidableEq, Inhabited

namespace ValueType

def isOrderable : ValueType → Bool
  | string | number | timestamp => true
  | enum | bool => false

def toText : ValueType → String
  | string => "string"
  | number => "number"
  | timestamp => "timestamp"
  | enum => "enum"
  | bool => "bool"

def all : List ValueType := [string, number, timestamp, enum, bool]

def ofText? (name : String) : Option ValueType :=
  all.find? fun type => type.toText = name

end ValueType

inductive Value where
  | string (text : String)
  | number (n : Number)
  | timestamp (t : Timestamp)
  | enum (discriminant : UInt32)
  | bool (b : Bool)
  deriving DecidableEq

namespace Value

def type : Value → ValueType
  | string _ => .string
  | number _ => .number
  | timestamp _ => .timestamp
  | enum _ => .enum
  | bool _ => .bool

def text? : Value → Option String
  | string text => some text
  | _ => none

def number? : Value → Option Number
  | number n => some n
  | _ => none

/--
Compare two values. Texts are ordered by their characters, and false is less than true. Values of different
types are not comparable, and neither is a NaN.
-/
def compare : Value → Value → Option Ordering
  | string a, string b => some (Ord.compare a b)
  | number a, number b => a.compare b
  | timestamp a, timestamp b => some (a.compare b)
  | enum a, enum b => some (Ord.compare a.toNat b.toNat)
  | bool a, bool b => some (Ord.compare a b)
  | _, _ => none

def compare? : Option Value → Option Value → Option Ordering
  | some a, some b => a.compare b
  | _, _ => none

def same : Value → Value → Bool
  | string a, string b => a = b
  | number a, number b => a.same b
  | timestamp a, timestamp b => a = b
  | enum a, enum b => a = b
  | bool a, bool b => a = b
  | _, _ => false

def toText : Value → String
  | string text => text
  | number n => n.toText
  | timestamp t => toString t.millis.toInt
  | enum d => "#" ++ toString d.toNat
  | bool b => if b then "true" else "false"

end Value

end Criteria
