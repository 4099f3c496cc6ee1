import Criteria.Yaml.Scalar

/-!
This module contains the reading of block scalars. A block scalar is indented below a header, which says whether
its lines are folded and what becomes of the line breaks at its end.
-/

namespace Criteria.Yaml

inductive Chomping where
  | strip
  | clip
  | keep
  deriving DecidableEq

namespace Chomping

def ofChar? (c : Char) : Option Chomping :=
  [('-', strip), ('+', keep)].lookup c

def apply (chomping : Chomping) (lineBreak further : Nat) : List Char :=
  match chomping with
  | strip => []
  | clip => List.replicate lineBreak '\n'
  | keep => List.replicate (lineBreak + further) '\n'

end Chomping

structure BlockHeader where
  chomping : Option Chomping := none
  indentation : Option Nat := none

namespace BlockHeader

def addChomping (header : BlockHeader) (s : Source) : BlockHeader × Source :=
  match header.chomping, s.head?.bind fun c => Chomping.ofChar? c.char with
  | none, some chomping => ({ header with chomping := some chomping }, s.drop 1)
  | _, _ => (header, s)

def addIndentation (header : BlockHeader) (s : Source) : BlockHeader × Source :=
  match s with
  | c :: rest =>
    if '1' ≤ c.char && c.char ≤ '9' then
      ({ header with indentation := some (c.char.toNat - '0'.toNat) }, rest)
    else (header, s)
  | [] => (header, s)

def read? (s : Source) : Option (BlockHeader × Source) := do
  let (header, s) := BlockHeader.addChomping {} s
  let (header, s) := header.addIndentation s
  let (header, s) := header.addChomping s
  return (header, ← s.nextLine?)

end BlockHeader

/--
Skip empty lines and the indentation of the next other line. This gives the number of the lines and the greatest
indentation. If it is not known how far lines are indented, all blanks belong to the indentation.
-/
def skipIndentation? (indentation : Option Nat) :
    Nat → Nat → Source → Option (Nat × Nat × Source)
  | lines, greatest, [] => some (lines, greatest, [])
  | lines, greatest, c :: s =>
    if c.char = '\n' then
      skipIndentation? indentation (lines + 1) greatest s
    else if indentation.any (· ≤ c.place.column) then
      some (lines, greatest, c :: s)
    else if c.char = ' ' then
      skipIndentation? indentation lines (max greatest (c.place.column + 1)) s
    else if c.char = '\t' then
      none
    else
      some (lines, greatest, c :: s)

structure BlockContent where
  content : List Char := []
  lineBreak : Nat := 0
  further : Nat := 0
  startsBlank : Bool := false

namespace BlockContent

def addLine (block : BlockContent) (isLiteral : Bool) (line : List Char) : List Char :=
  let startsBlank := line.head?.any isSpace
  let isFolded := !isLiteral && block.lineBreak = 1 && !block.startsBlank && !startsBlank
  let join :=
    if !isFolded then List.replicate (block.lineBreak + block.further) '\n'
    else if block.further = 0 then [' ']
    else List.replicate block.further '\n'
  line.reverseAux (join ++ block.content)

end BlockContent

/--
Read the lines of a block scalar that are indented by `indentation`. `fuel` bounds their number.
-/
def blockLines? (isLiteral : Bool) (indentation : Nat) :
    Nat → BlockContent → Source → Option (BlockContent × Source)
  | 0, block, s => some (block, s)
  | fuel + 1, block, s =>
    if s.head?.any (·.place.column = indentation) then do
      let (line, rest) := s.readWhile (· ≠ '\n')
      let (further, _, next) ← skipIndentation? (some indentation) 0 0 (rest.drop 1)
      let block : BlockContent :=
        { content := block.addLine isLiteral line
          lineBreak := if rest.isEmpty then 0 else 1
          further := further
          startsBlank := line.head?.any isSpace }
      blockLines? isLiteral indentation fuel block next
    else some (block, s)

/--
Read a block scalar, given what follows its indicator. It is indented to column `least` at least.
-/
def blockScalar? (isLiteral : Bool) (least : Nat) (s : Source) : Option (List Char × Source) := do
  let (header, s) ← BlockHeader.read? s
  let given := header.indentation.map (least - 1 + ·)
  let (further, greatest, s) ← skipIndentation? given 0 0 s
  let indentation := given.getD (max 1 (max least greatest))
  let (block, s) ← blockLines? isLiteral indentation (s.length + 1) { further := further } s
  let ending := (header.chomping.getD .clip).apply block.lineBreak block.further
  return (block.content.reverseAux ending, s)

end Criteria.Yaml
