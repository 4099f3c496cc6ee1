import Criteria.Query
import Criteria.Memory.Backend

/-!
This module contains outlines, which show the structure of values to those who look for a mistake. An outline
says how a value is made up, with the name of each part.
-/

namespace Criteria

inductive Outline where
  | words (text : String)
  | quoted (text : String)
  | list (items : List Outline)
  | tuple (name : String) (parts : List Outline)
  | record (name : String) (parts : List (String × Outline))

namespace Outline

def escapeChar (c : Char) : List Char :=
  if c = '"' || c = '\\' then ['\\', c]
  else if c = '\n' then ['\\', 'n']
  else if c = '\r' then ['\\', 'r']
  else if c = '\t' then ['\\', 't']
  else if c = '\x00' then ['\\', '0']
  else if c.toNat < 32 || c.toNat = 127 then
    "\\u\x7b".toList ++ Nat.toDigits 16 c.toNat ++ ['\x7d']
  else [c]

def quote (text : String) : String :=
  String.ofList ('"' :: text.toList.flatMap escapeChar ++ ['"'])

mutual

def toText : Outline → String
  | words text => text
  | quoted text => quote text
  | list items => "[" ++ ", ".intercalate (textsOf items) ++ "]"
  | tuple name parts => name ++ "(" ++ ", ".intercalate (textsOf parts) ++ ")"
  | record name parts => name ++ " \x7b " ++ ", ".intercalate (textsOfParts parts) ++ " \x7d"

def textsOf : List Outline → List String
  | [] => []
  | item :: items => item.toText :: textsOf items

def textsOfParts : List (String × Outline) → List String
  | [] => []
  | (name, part) :: parts => (name ++ ": " ++ part.toText) :: textsOfParts parts

end

def bool (b : Bool) : Outline :=
  words (if b then "true" else "false")

def nat (n : Nat) : Outline :=
  words (toString n)

def option {α : Type} (outline : α → Outline) : Option α → Outline
  | none => words "None"
  | some a => tuple "Some" [outline a]

end Outline

open Outline

def capitalizeWords (name : String) : String :=
  String.join ((name.splitOn "_").map String.capitalize)

def ValueType.outline (type : ValueType) : Outline :=
  words (capitalizeWords type.toText)

def Operator.outline (operator : Operator) : Outline :=
  words (capitalizeWords operator.toText)

def Direction.outline (direction : Direction) : Outline :=
  words (capitalizeWords direction.toText)

def AggregateFunction.outline (function : AggregateFunction) : Outline :=
  words (capitalizeWords function.toText)

def Number.outline : Number → Outline
  | signed n => tuple "I64" [words (toString n.toInt)]
  | unsigned n => tuple "U64" [nat n.toNat]
  | float x => tuple "F64" [words (Binary64.Layout.exact.write x)]

def Value.outline : Value → Outline
  | string text => tuple "String" [quoted text]
  | number n => tuple "Number" [n.outline]
  | timestamp t => tuple "Timestamp" [tuple "Timestamp" [words (toString t.millis.toInt)]]
  | enum d => tuple "Enum" [nat d.toNat]
  | bool b => tuple "Bool" [Outline.bool b]

variable {R S : Type}

def Field.outline (field : Field R) : Outline :=
  record "FieldDescriptor" [("name", quoted field.name), ("value_type", field.type.outline)]

def Handle.outline {type : ValueType} (handle : Handle R type) : Outline :=
  tuple "Field" [handle.field.outline]

def Leaf.outline (leaf : Leaf R) : Outline :=
  record "Leaf" [("field", quoted leaf.field.name), ("operator", leaf.operator.outline),
    ("operands", list (leaf.operands.map Value.outline))]

def Condition.outline (condition : Condition R) : Outline :=
  condition.fold Leaf.outline fun connective children =>
    tuple (capitalizeWords connective.toText) [list children]

def Aggregate.outline (aggregate : Aggregate R) : Outline :=
  record "Aggregate" [("function", aggregate.function.outline),
    ("field", quoted aggregate.field.name),
    ("group_by", list (aggregate.groupBy.map fun field => quoted field.name)),
    ("order_by", option Direction.outline aggregate.order)]

def AggregateList.outline (aggregates : AggregateList R) : Outline :=
  list (aggregates.map Aggregate.outline)

def SortKey.outline (key : SortKey R) : Outline :=
  words (key.field.name ++ " " ++ key.direction.toText)

def SortOrder.outline (order : SortOrder R) : Outline :=
  list (order.map SortKey.outline)

def Page.outline (page : Page) : Outline :=
  record "Page" [("offset", nat page.offset.toNat),
    ("limit", option (fun limit => nat limit.toNat) page.limit)]

def Query.outline (scope : S → Outline) (query : Query R S) : Outline :=
  record "RootQuery" [("scope", scope query.scope),
    ("conditions", list (query.conditions.map Condition.outline)),
    ("aggregates", option AggregateList.outline query.aggregates),
    ("sort", option SortOrder.outline query.sort), ("page", option Page.outline query.page)]

def Memory.testOutline : Outline :=
  words "MemoryPredicate"

def Memory.sortOutline (order : SortOrder R) : Outline :=
  tuple "MemorySort" [order.outline]

def Memory.Selection.outline (selection : Memory.Selection R) : Outline :=
  record "MemoryCriteria" [("scope", nat selection.scope.length),
    ("predicate", Outline.bool selection.predicate.isSome),
    ("aggregates", AggregateList.outline selection.aggregates),
    ("page", option Page.outline selection.page)]

end Criteria
