import Criteria.Pattern.Basic

/-!
This module contains the regular expressions that patterns are turned into for repeated use: sequences
that have to match a whole text, line breaks included. Matching keeps all the places that can have been
reached in the text.
-/

namespace Criteria

inductive Regex.Item where
  | char (c : Char)
  | any
  | anyMany
  deriving DecidableEq

structure Regex where
  items : List Regex.Item
  deriving DecidableEq

namespace Regex

def isSpecial (c : Char) : Bool :=
  ['\\', '.', '+', '*', '?', '(', ')', '|', '[', ']', '\x7b', '\x7d', '^', '$', '#', '&', '-',
    '~'].contains c

def Item.source : Item → List Char
  | char c => if isSpecial c then ['\\', c] else [c]
  | any => ['.']
  | anyMany => ['.', '*']

def source (regex : Regex) : String :=
  String.ofList (['(', '?', 's', ')', '^'] ++ regex.items.flatMap Item.source ++ ['$'])

def Item.ofPart : Pattern.Part → Item
  | .anyRun => anyMany
  | .anyChar => any
  | .char c => char c

def ofPattern (pattern : Pattern) : Regex :=
  ⟨pattern.map Item.ofPart⟩

def ends : List Char → List (List Char)
  | [] => [[]]
  | c :: text => (c :: text) :: ends text

/--
What is left of a text after one item, for each of its rests that may precede the item. The rests are in
order of decreasing length, so after any number of characters exactly the ends of the first are left.
-/
def Item.step : Item → List (List Char) → List (List Char)
  | char c, rests => rests.filterMap fun rest => if rest.head? = some c then rest.tail? else none
  | any, rests => rests.filterMap List.tail?
  | anyMany, rests =>
    match rests with
    | [] => []
    | rest :: _ => ends rest

def isMatch (regex : Regex) (text : List Char) : Bool :=
  (regex.items.foldl (fun rests item => item.step rests) [text]).any List.isEmpty

example : (ofPattern (Pattern.ofText "a.b%_")).source = "(?s)^a\\.b.*.$" := by decide +kernel
example : (ofPattern (Pattern.ofText "line%")).isMatch "line\nbreak".toList = true := by decide +kernel

end Regex

end Criteria
