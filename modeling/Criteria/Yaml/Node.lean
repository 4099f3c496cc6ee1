import Criteria.Yaml.BlockScalar
import Criteria.Yaml.Tag

/-!
This module contains the reading of nodes that are scalars. A node may have properties before it, which are an
anchor and a tag. An alias stands for the node with an anchor of its name.
-/

namespace Criteria.Yaml

abbrev Anchors := List (String × Scalar)

structure Properties where
  anchor : Option String := none
  tag : Option String := none

structure Context where
  isFlow : Bool
  least : Nat
  handles : Handles

def name? (s : Source) : Option (String × Source) :=
  match s.readWhile isNameChar with
  | ([], _) => none
  | (name, rest) => some (String.ofList name, rest)

def anchor? : Source → Option (String × Source)
  | ⟨'&', _⟩ :: s => (name? s).filter fun (_, rest) => rest.isSeparated
  | _ => none

def alias? : Source → Option (String × Source)
  | ⟨'*', _⟩ :: s =>
    (name? s).filter fun (_, rest) =>
      rest.isSeparated || rest.startsWith fun c => c = ':' || c = ',' || c = '\x7d'
  | _ => none

def Context.admits (context : Context) (s : Source) : Bool :=
  s.head?.any fun c => context.least ≤ c.place.column

namespace Properties

def add? (properties : Properties) (context : Context) (cursor : Cursor) :
    Option (Properties × Cursor) := do
  let next := cursor.skip context.isFlow
  guard (context.admits next.source)
  match properties.anchor, anchor? next.source with
  | none, some (name, rest) => return ({ properties with anchor := some name }, ⟨false, rest⟩)
  | _, _ =>
    guard properties.tag.isNone
    let (tag, rest) ← tag? context.handles next.source
    return ({ properties with tag := some tag }, ⟨false, rest⟩)

def read (context : Context) (cursor : Cursor) : Properties × Cursor :=
  match Properties.add? {} context cursor with
  | none => ({}, cursor)
  | some (properties, cursor) =>
    (properties.add? context cursor).getD (properties, cursor)

def keep (properties : Properties) (scalar : Scalar) (anchors : Anchors) : Anchors :=
  match properties.anchor with
  | some name => (name, scalar) :: anchors
  | none => anchors

end Properties

/--
The content of a scalar, how it is written, and what follows it. The header of a block scalar may stand one column
further to the left than other scalars.
-/
def content? (context : Context) (s : Source) : Option (List Char × ScalarStyle × Cursor) :=
  match s with
  | [] => none
  | c :: rest =>
    if Source.isDocumentMarker s then none
    else if !context.isFlow && (c.char = '|' || c.char = '>') then do
      guard (context.least ≤ c.place.column + 1)
      let (content, rest) ← blockScalar? (c.char = '|') context.least rest
      return (content, if c.char = '|' then .literal else .folded, ⟨true, rest⟩)
    else if !context.admits s then none
    else if startsPlain context.isFlow s then do
      let (content, cursor) ← plain? context.isFlow context.least [] .empty s
      return (content, .plain, cursor)
    else do
      let (content, rest) ← quoted? s
      return (content, .quoted, ⟨false, rest⟩)

def scalar? (context : Context) (properties : Properties) (anchors : Anchors) (cursor : Cursor) :
    Option (Scalar × Anchors × Cursor) :=
  let next := cursor.skip context.isFlow
  match alias? next.source with
  | some (name, rest) => do
    guard (context.admits next.source && properties.anchor.isNone && properties.tag.isNone)
    return (← anchors.lookup name, anchors, ⟨false, rest⟩)
  | none => do
    let (content, style, cursor) ← content? context next.source
    let scalar : Scalar := ⟨String.ofList content, style, properties.tag⟩
    return (scalar, properties.keep scalar anchors, cursor)

def node? (context : Context) (anchors : Anchors) (cursor : Cursor) :
    Option (Scalar × Anchors × Cursor) :=
  let (properties, cursor) := Properties.read context cursor
  scalar? context properties anchors cursor

end Criteria.Yaml
