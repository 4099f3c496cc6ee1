import Criteria.Text.Numeral
import Criteria.Yaml.Source

/-!
This module contains scalars, which are the texts in a document, and the reading of those without quotes and
in quotes. Both may go on over several lines, which are folded: a line break between two lines is read as a
blank, and each empty line as a line break.
-/

namespace Criteria.Yaml

inductive ScalarStyle where
  | plain
  | quoted
  | literal
  | folded
  deriving DecidableEq

structure Scalar where
  text : String
  style : ScalarStyle
  tag : Option String

/--
What separates two words of a scalar: blanks from the last to the first, line breaks after the first one, or line
breaks after one that a backslash takes away.
-/
inductive Gap where
  | blanks (blanks : List Char)
  | breaks (further : Nat)
  | continued (further : Nat)

namespace Gap

def empty : Gap := blanks []

def isEmpty : Gap → Bool
  | blanks s => s.isEmpty
  | _ => false

def hasBreak : Gap → Bool
  | blanks _ => false
  | _ => true

def add (c : Char) : Gap → Gap
  | blanks s => if c = '\n' then breaks 0 else blanks (c :: s)
  | breaks n => if c = '\n' then breaks (n + 1) else breaks n
  | continued n => if c = '\n' then continued (n + 1) else continued n

def after (content : List Char) : Gap → List Char
  | blanks s => s ++ content
  | breaks 0 => ' ' :: content
  | breaks n => List.replicate n '\n' ++ content
  | continued n => List.replicate n '\n' ++ content

end Gap

def isFlowIndicator (c : Char) : Bool :=
  [',', '[', ']', '\x7b', '\x7d'].contains c

def startsPlain (isFlow : Bool) : Source → Bool
  | [] => false
  | c :: s =>
    if c.char = '-' then !Source.isSeparated s
    else if c.char = '?' || c.char = ':' then !isFlow && !Source.isSeparated s
    else !(isSpace c.char || c.char = '\n' || isFlowIndicator c.char ||
      ['#', '&', '*', '!', '|', '>', '\'', '"', '%', '@', '\x60'].contains c.char)

/--
Whether a plain scalar ends before the next character, which is no blank. In a block mapping its further lines
start at column `least` at least.
-/
def endsPlain (isFlow : Bool) (least : Nat) (gap : Gap) : Source → Bool
  | [] => true
  | c :: s =>
    (gap.hasBreak && !isFlow && c.place.column < least) ||
      (!gap.isEmpty && (c.char = '#' || Source.isDocumentMarker (c :: s))) ||
      (c.char = ':' && Source.isSeparated s) || (isFlow && isFlowIndicator c.char)

/--
Read on in a plain scalar, given its content so far from its last character to its first. What follows the
scalar begins with no blank.
-/
def plain? (isFlow : Bool) (least : Nat) (content : List Char) (gap : Gap) :
    Source → Option (List Char × Cursor)
  | [] => some (content.reverse, ⟨gap.hasBreak, []⟩)
  | c :: s =>
    if isSpace c.char || c.char = '\n' then
      if gap.hasBreak && c.char = '\t' && c.place.column < least then none
      else plain? isFlow least content (gap.add c.char) s
    else if endsPlain isFlow least gap (c :: s) then
      some (content.reverse, ⟨gap.hasBreak, c :: s⟩)
    else if isFlow && c.char = ':' && Source.startsWith (fun d => d = '?' || isFlowIndicator d) s then
      none
    else plain? isFlow least (c.char :: gap.after content) .empty s

def singleQuoted? (content : List Char) (gap : Gap) : Source → Option (List Char × Source)
  | [] => none
  | ⟨'\'', _⟩ :: ⟨'\'', _⟩ :: s => singleQuoted? ('\'' :: gap.after content) .empty s
  | ⟨'\'', _⟩ :: s => some ((gap.after content).reverse, s)
  | c :: s =>
    if isSpace c.char || c.char = '\n' then singleQuoted? content (gap.add c.char) s
    else if Source.isDocumentMarker (c :: s) then none
    else singleQuoted? (c.char :: gap.after content) .empty s

def escapes : List (Char × Char) :=
  [('0', '\x00'), ('a', '\x07'), ('b', '\x08'), ('t', '\t'), ('\t', '\t'), ('n', '\n'), ('v', '\x0b'),
    ('f', '\x0c'), ('r', '\r'), ('e', '\x1b'), (' ', ' '), ('"', '"'), ('/', '/'), ('\\', '\\'),
    ('N', '\u0085'), ('_', '\u00a0'), ('L', '\u2028'), ('P', '\u2029')]

def escapeLength? (c : Char) : Option Nat :=
  [('x', 2), ('u', 4), ('U', 8)].lookup c

def escape? : Source → Option (Char × Source)
  | [] => none
  | c :: s =>
    match escapeLength? c.char with
    | some n => do
      let digits := (s.take n).map PlacedChar.char
      guard (digits.length = n)
      let value ← Text.hexadecimal? digits
      guard (value.isValidChar)
      return (Char.ofNat value, s.drop n)
    | none => (escapes.lookup c.char).map fun character => (character, s)

def doubleQuoted? : Nat → List Char → Gap → Source → Option (List Char × Source)
  | 0, _, _, _ => none
  | _, _, _, [] => none
  | fuel + 1, content, gap, c :: s =>
    if isSpace c.char || c.char = '\n' then doubleQuoted? fuel content (gap.add c.char) s
    else if Source.isDocumentMarker (c :: s) then none
    else if c.char = '"' then some ((gap.after content).reverse, s)
    else if c.char ≠ '\\' then doubleQuoted? fuel (c.char :: gap.after content) .empty s
    else if Source.startsWith (· = '\n') s then
      doubleQuoted? fuel (gap.after content) (.continued 0) (s.drop 1)
    else do
      let (character, s) ← escape? s
      doubleQuoted? fuel (character :: gap.after content) .empty s

def quoted? : Source → Option (List Char × Source)
  | [] => none
  | c :: s =>
    if c.char = '\'' then singleQuoted? [] .empty s
    else if c.char = '"' then doubleQuoted? (s.length + 1) [] .empty s
    else none

def boolWord? (word : String) : Option Bool :=
  if ["true", "True", "TRUE"].contains word then some true
  else if ["false", "False", "FALSE"].contains word then some false
  else none

/--
The boolean that a scalar stands for. It is plain, whatever its tag, or literal with the tag of booleans.
-/
def Scalar.bool? (scalar : Scalar) : Option Bool :=
  if scalar.style = .plain ||
      (scalar.style = .literal && scalar.tag = some "tag:yaml.org,2002:bool") then
    boolWord? scalar.text
  else none

end Criteria.Yaml
