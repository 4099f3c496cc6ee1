import Criteria.Yaml.Mapping

/-!
This module contains the reading of documents that hold a mapping from scalars to scalars. A document without
content counts as an empty mapping. There may be directives and a marker before a document and markers after it,
but no other document.
-/

namespace Criteria.Yaml

structure Directives where
  hasVersion : Bool := false
  declared : Handles := []

namespace Directives

def number? (s : Source) : Option (Nat × Source) := do
  let (digits, rest) := s.readWhile Char.isDigit
  guard (1 ≤ digits.length && digits.length ≤ 9)
  return (← Text.numeral? digits, rest)

/--
Read a version of YAML, which is 1.1 or 1.2. It must be stated once at most.
-/
def addVersion? (directives : Directives) (s : Source) : Option (Directives × Source) := do
  guard (!directives.hasVersion)
  let (major, s) ← number? s
  guard (s.startsWith (· = '.'))
  let (minor, s) ← number? (s.drop 1)
  guard (major = 1 && (minor = 1 || minor = 2))
  return ({ directives with hasVersion := true }, s)

def handle? (s : Source) : Option (String × Source) :=
  match longHandle? s with
  | some handle => some handle
  | none => if s.startsWith (· = '!') then some ("!", s.drop 1) else none

/--
Read a handle and what it stands for. It must be declared once at most.
-/
def addHandle? (directives : Directives) (s : Source) : Option (Directives × Source) := do
  let (handle, s) ← handle? s
  guard (s.startsWith isSpace && (directives.declared.lookup handle).isNone)
  let (start, s) ← uri? isUriChar (s.readWhile isSpace).2
  guard s.isSeparated
  return ({ directives with declared := (handle, start) :: directives.declared }, s)

def add? (directives : Directives) (s : Source) : Option (Directives × Source) := do
  let (name, s) := s.readWhile isNameChar
  guard s.isSeparated
  let s := (s.readWhile isSpace).2
  let (directives, s) ← match String.ofList name with
    | "YAML" => directives.addVersion? s
    | "TAG" => directives.addHandle? s
    | _ => none
  return (directives, ← s.nextLine?)

def read? : Nat → Directives → Cursor → Option (Directives × Cursor)
  | 0, _, _ => none
  | fuel + 1, directives, cursor =>
    let next := cursor.skip false
    match next.source with
    | ⟨'%', place⟩ :: s => do
      guard (place.column = 0)
      let (directives, s) ← directives.add? s
      read? fuel directives ⟨false, s⟩
    | _ => some (directives, next)

def needMarker (directives : Directives) : Bool :=
  directives.hasVersion || !directives.declared.isEmpty

def handles (directives : Directives) : Handles :=
  directives.declared ++ standardHandles

end Directives

/--
Read the content of a document, given the properties before it and whether it may be missing. `fuel` bounds the
number of properties.
-/
def root? (handles : Handles) :
    Nat → Properties → Bool → Cursor → Option (Entries × Cursor)
  | 0, _, _, _ => none
  | fuel + 1, properties, mayBeMissing, cursor =>
    let next := cursor.skip false
    match next.source with
    | [] => some ([], next)
    | c :: s =>
      if Source.isDocumentMarker (c :: s) then
        if mayBeMissing then some ([], next) else none
      else if c.char = '\x7b' then
        (flowEntries? handles (s.length + 1) [] s).map fun (entries, rest) => (entries, ⟨false, rest⟩)
      else if next.mayStartKey && startsEntry handles (c :: s) then
        blockEntries? handles c.place.column (s.length + 2) [] next
      else do
        let (properties, cursor) ← properties.add? ⟨false, 0, handles⟩ next
        root? handles fuel properties true cursor

def isFinished : Nat → Cursor → Bool
  | 0, _ => false
  | fuel + 1, cursor =>
    let next := cursor.skip false
    next.source.isEmpty ||
      (next.source.isMarker '.' && isFinished fuel ⟨false, next.source.drop 3⟩)

def read? (text : String) : Option Entries := do
  guard (text.toList.all isPrintable)
  let source := Source.ofChars ⟨0, 0, 0⟩ (unifyBreaks text.toList)
  let fuel := source.length + 1
  let (directives, cursor) ← Directives.read? fuel {} ⟨true, source⟩
  let hasMarker := cursor.source.isMarker '-'
  guard (hasMarker || !directives.needMarker)
  let start := if hasMarker then ⟨false, cursor.source.drop 3⟩ else cursor
  let (entries, rest) ← root? directives.handles 3 {} hasMarker start
  guard (isFinished fuel rest)
  return entries

end Criteria.Yaml
