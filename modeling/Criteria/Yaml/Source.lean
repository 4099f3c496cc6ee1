/-!
This module contains texts whose characters know their places. The places tell how far a line is indented and
whether two characters stand on one line.
-/

namespace Criteria.Yaml

def isSpace (c : Char) : Bool := c = ' ' || c = '\t'

def isBreak (c : Char) : Bool :=
  c = '\n' || c = '\r' || c = '\u0085' || c = '\u2028' || c = '\u2029'

def isPrintable (c : Char) : Bool :=
  c = '\t' || isBreak c || (0x20 ≤ c.toNat && c.toNat ≤ 0x7E) ||
    (0xA0 ≤ c.toNat && c.toNat ≠ 0xFFFE && c.toNat ≠ 0xFFFF)

def unifyBreaks : List Char → List Char
  | [] => []
  | '\r' :: '\n' :: s => '\n' :: unifyBreaks s
  | c :: s => (if isBreak c then '\n' else c) :: unifyBreaks s

structure Place where
  index : Nat
  line : Nat
  column : Nat

def Place.next (place : Place) (c : Char) : Place :=
  if c = '\n' then ⟨place.index + 1, place.line + 1, 0⟩
  else ⟨place.index + 1, place.line, place.column + 1⟩

structure PlacedChar where
  char : Char
  place : Place

abbrev Source := List PlacedChar

namespace Source

def ofChars (place : Place) : List Char → Source
  | [] => []
  | c :: s => ⟨c, place⟩ :: ofChars (place.next c) s

def startsWith (p : Char → Bool) (s : Source) : Bool :=
  s.head?.any fun c => p c.char

def isSeparated (s : Source) : Bool :=
  s.head?.all fun c => isSpace c.char || c.char = '\n'

def readWhile (p : Char → Bool) (s : Source) : List Char × Source :=
  ((s.takeWhile fun c => p c.char).map PlacedChar.char, s.dropWhile fun c => p c.char)

def isMarker (c : Char) (s : Source) : Bool :=
  s.head?.any (·.place.column = 0) && (s.take 3).map PlacedChar.char = [c, c, c] &&
    isSeparated (s.drop 3)

def isDocumentMarker (s : Source) : Bool :=
  s.isMarker '-' || s.isMarker '.'

def nextLine? (s : Source) : Option Source :=
  let s := (s.readWhile isSpace).2
  let s := if s.startsWith (· = '#') then (s.readWhile (· ≠ '\n')).2 else s
  match s with
  | [] => some []
  | c :: s => if c.char = '\n' then some s else none

end Source

structure Cursor where
  mayStartKey : Bool
  source : Source

namespace Cursor

/--
Skip what stands before the next token, given whether a comment has begun. Within braces a new line does not
let a key start. Where a key may start a tab does not count as a blank.
-/
def skipFrom (isFlow : Bool) : Bool → Bool → Source → Cursor
  | mayStartKey, _, [] => ⟨mayStartKey, []⟩
  | mayStartKey, inComment, c :: s =>
    if c.char = '\n' then
      skipFrom isFlow (mayStartKey || !isFlow) false s
    else if inComment || c.char = '#' then
      skipFrom isFlow mayStartKey true s
    else if c.char = ' ' || (c.char = '\t' && (isFlow || !mayStartKey)) ||
        (c.char = '\uFEFF' && c.place.column = 0) then
      skipFrom isFlow mayStartKey false s
    else
      ⟨mayStartKey, c :: s⟩

def skip (isFlow : Bool) (cursor : Cursor) : Cursor :=
  skipFrom isFlow cursor.mayStartKey false cursor.source

end Cursor

end Criteria.Yaml
