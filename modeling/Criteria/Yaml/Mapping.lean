import Criteria.Yaml.Node

/-!
This module contains the reading of mappings from scalars to scalars, which are written as blocks, with an entry on
a line, or in braces.
-/

namespace Criteria.Yaml

abbrev Entries := List (Scalar × Scalar)

/--
A key that has its colon on the same line, and what follows the colon. There are 1024 characters up to the colon
at most.
-/
def implicitKey? (context : Context) (anchors : Anchors) (s : Source) :
    Option (Scalar × Anchors × Source) := do
  let start ← s.head?
  let (key, anchors, cursor) ← node? context anchors ⟨!context.isFlow, s⟩
  match (cursor.skip context.isFlow).source with
  | ⟨':', place⟩ :: rest =>
    guard (place.line = start.place.line && place.index ≤ start.place.index + 1024)
    guard (context.isFlow || Source.isSeparated rest)
    return (key, anchors, rest)
  | _ => none

/--
Whether a key behind a question mark starts here. Within braces no blank has to follow the question mark.
-/
def startsExplicitKey (isFlow : Bool) : Source → Bool
  | [] => false
  | c :: s => c.char = '?' && (isFlow || Source.isSeparated s)

/--
A key behind a question mark, and what follows its colon. In a block the colon stands below the question mark.
-/
def explicitKey? (context : Context) (anchors : Anchors) (s : Source) :
    Option (Scalar × Anchors × Source) := do
  let (key, anchors, cursor) ← node? context anchors ⟨!context.isFlow, s⟩
  match (cursor.skip context.isFlow).source with
  | ⟨':', place⟩ :: rest =>
    guard (context.isFlow || (place.column + 1 = context.least && Source.isSeparated rest))
    return (key, anchors, rest)
  | _ => none

def startsEntry (handles : Handles) (s : Source) : Bool :=
  startsExplicitKey false s || (implicitKey? ⟨false, 0, handles⟩ [] s).isSome

/--
The entries of a block that is indented by `indentation`. The block ends before a line that is indented less and
before a marker. `fuel` bounds the number of entries.
-/
def blockEntries? (handles : Handles) (indentation : Nat) :
    Nat → Anchors → Cursor → Option (Entries × Cursor)
  | 0, _, _ => none
  | fuel + 1, anchors, cursor =>
    let next := cursor.skip false
    let inner : Context := ⟨false, indentation + 1, handles⟩
    match next.source with
    | [] => some ([], next)
    | c :: s =>
      if c.place.column < indentation || Source.isDocumentMarker (c :: s) then some ([], next)
      else do
        guard (c.place.column = indentation)
        let isExplicit := startsExplicitKey false (c :: s)
        let (key, anchors, rest) ←
          if isExplicit then explicitKey? inner anchors s
          else implicitKey? ⟨false, indentation, handles⟩ anchors (c :: s)
        let (value, anchors, cursor) ← node? inner anchors ⟨isExplicit, rest⟩
        let (entries, cursor) ← blockEntries? handles indentation fuel anchors cursor
        return ((key, value) :: entries, cursor)

/--
The entries up to a closing brace, given what follows the opening one or a comma, and what follows the closing one.
`fuel` bounds the number of entries.
-/
def flowEntries? (handles : Handles) : Nat → Anchors → Source → Option (Entries × Source)
  | 0, _, _ => none
  | fuel + 1, anchors, s =>
    let context : Context := ⟨true, 0, handles⟩
    let start := (Cursor.skip true ⟨false, s⟩).source
    if start.startsWith (· = '\x7d') then some ([], start.drop 1)
    else do
      let (key, anchors, rest) ←
        if startsExplicitKey true start then explicitKey? context anchors (start.drop 1)
        else implicitKey? context anchors start
      let (value, anchors, cursor) ← node? context anchors ⟨false, rest⟩
      match (cursor.skip true).source with
      | ⟨',', _⟩ :: rest => do
        let (entries, rest) ← flowEntries? handles fuel anchors rest
        return ((key, value) :: entries, rest)
      | ⟨'\x7d', _⟩ :: rest => return ([(key, value)], rest)
      | _ => none

end Criteria.Yaml
