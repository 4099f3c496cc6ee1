import Criteria.Formula
import Criteria.Text.Blank

/-!
This module contains filter expressions: formulas over comparisons that are kept as text. What selectors,
symbols and arguments mean is not their concern.
-/

namespace Criteria.Filter

structure Comparison where
  selector : String
  symbol : String
  arguments : List String
  deriving DecidableEq

abbrev Expression := Formula Comparison

def separatorChar : Connective → Char
  | .and => ';'
  | .or => ','

def isReserved (c : Char) : Bool :=
  ['"', '\'', '(', ')', ';', ',', '=', '!', '~', '<', '>'].contains c || Text.isBlank c

def isQuote (c : Char) : Bool :=
  c = '\'' || c = '"'

/--
What a quoted argument says and what follows it, given the text behind its opening quote. A backslash makes
the next character stand for itself.
-/
def unquote? (quote : Char) : List Char → Option (List Char × List Char)
  | [] => none
  | ['\\'] => none
  | '\\' :: c :: s => (unquote? quote s).map fun (content, rest) => (c :: content, rest)
  | c :: s =>
    if c = quote then some ([], s)
    else (unquote? quote s).map fun (content, rest) => (c :: content, rest)

theorem length_lt_of_unquote? {quote : Char} {s content rest : List Char}
    (h : unquote? quote s = some (content, rest)) : rest.length < s.length := by
  fun_induction unquote? quote s generalizing content rest <;> grind [Option.map_eq_some_iff]

end Criteria.Filter
