/-!
This module contains patterns for texts, in which a percent sign stands for any run of characters, an
underscore for any one character, and every other character for itself.
-/

namespace Criteria

inductive Pattern.Part where
  | anyRun
  | anyChar
  | char (c : Char)
  deriving DecidableEq

abbrev Pattern := List Pattern.Part

namespace Pattern

def Part.ofChar (c : Char) : Part :=
  if c = '%' then anyRun else if c = '_' then anyChar else char c

def Part.takes : Part → Char → Bool
  | anyRun, _ => false
  | anyChar, _ => true
  | char d, c => c = d

def ofText (text : String) : Pattern :=
  text.toList.map Part.ofChar

/--
What it means that a pattern matches a text: the text can be cut up so that each part of the pattern has
its own stretch of it in turn.
-/
inductive Matches : Pattern → List Char → Prop where
  | nil : Matches [] []
  | anyRun (run : List Char) {pattern : Pattern} {text : List Char} :
      Matches pattern text → Matches (.anyRun :: pattern) (run ++ text)
  | anyChar (c : Char) {pattern : Pattern} {text : List Char} :
      Matches pattern text → Matches (.anyChar :: pattern) (c :: text)
  | char (c : Char) {pattern : Pattern} {text : List Char} :
      Matches pattern text → Matches (.char c :: pattern) (c :: text)

end Pattern

end Criteria
