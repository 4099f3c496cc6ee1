/-!
This module contains what a parser returns: a value and the rest of the text, which is shorter than the
text by at least one character. A parser that calls itself on the rest therefore comes to an end.
-/

namespace Criteria.Text

structure Parsed (α : Type) (s : List Char) where
  value : α
  rest : List Char
  length_lt : rest.length < s.length

abbrev Shorter (s : List Char) := { rest : List Char // rest.length < s.length }

end Criteria.Text
