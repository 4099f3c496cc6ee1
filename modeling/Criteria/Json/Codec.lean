import Criteria.Aggregate
import Criteria.Condition
import Criteria.Json.Reader
import Criteria.Page
import Criteria.Settings.Basic

/-!
This module contains the JSON forms of values, conditions, pages and names, and the reading of pages, names
and settings from JSON.
-/

namespace Criteria

def Number.toJson : Number → Json
  | signed n => .int n.toInt
  | unsigned n => .int n.toNat
  | float x => if x.isFinite then .float x else .null

def Value.toJson : Value → Json
  | string text => .string text
  | number n => n.toJson
  | timestamp t => .int t.millis.toInt
  | enum d => .int d.toNat
  | bool b => .bool b

def Leaf.toJson {R : Type} (leaf : Leaf R) : Json :=
  .object [("field", .string leaf.field.name), ("operator", .string leaf.operator.toTag),
    ("operands", .array (leaf.operands.map Value.toJson))]

def Condition.toJson {R : Type} (condition : Condition R) : Json :=
  condition.fold (fun leaf => .object [("leaf", leaf.toJson)])
    fun connective children => .object [(connective.toText, .array children)]

namespace Page

def toJson (page : Page) : Json :=
  .object [("offset", .int page.offset.toNat),
    ("limit", page.limit.elim .null fun limit => .int limit.toNat)]

/--
Read a page: an object, whose other keys do not matter, or an array of offset and limit. What is missing
takes its default.
-/
def ofJson? : Json → Option Page
  | .object members => do
    guard (members.all fun member => member.1.isSome)
    let offset ← Json.readOr 0 Json.word? (← Json.member? members "offset")
    let limit ← Json.readOr none Json.optionalWord? (← Json.member? members "limit")
    return ⟨offset, limit⟩
  | .array items => do
    guard (items.length ≤ 2)
    let offset ← Json.readOr 0 Json.word? items[0]?
    let limit ← Json.readOr none Json.optionalWord? items[1]?
    return ⟨offset, limit⟩
  | _ => none

end Page

def Direction.ofJson? (json : Json) : Option Direction :=
  json.name?.bind ofText?

def AggregateFunction.ofJson? (json : Json) : Option AggregateFunction :=
  json.name?.bind ofText?

def ValueType.ofJson? (json : Json) : Option ValueType :=
  json.name?.bind ofText?

namespace Settings

def keys : List String := ["wildcard_equality", "null_literal"]

/--
Read settings: an object without other keys, or an array in the order of the names. What is missing takes its
default.
-/
def ofJson? : Json → Option Settings
  | .object members => do
    guard (members.all fun member => member.1.any keys.contains)
    let wildcardEquality ← Json.readOr true Json.bool? (← Json.member? members "wildcard_equality")
    let nullLiteral ← Json.readOr true Json.bool? (← Json.member? members "null_literal")
    return { wildcardEquality, nullLiteral }
  | .array items => do
    guard (items.length ≤ 2)
    let wildcardEquality ← Json.readOr true Json.bool? items[0]?
    let nullLiteral ← Json.readOr true Json.bool? items[1]?
    return { wildcardEquality, nullLiteral }
  | _ => none

def readJson? (text : String) : Option Settings := do
  ofJson? (← Json.read? text)

end Settings

end Criteria
