import Criteria.Filter.Expression

/-!
This module contains the completion of null checks. A null check may be written without an argument, but
the grammar asks for one, so the argument `null` is supplied where there is none. What is quoted stays as
it is. Separators that are left over at the end of a text are dropped.
-/

namespace Criteria.Filter

def nullCheckSymbols : List (List Char) :=
  ["=null=".toList, "=isnull=".toList, "=notnull=".toList, "=nonnull=".toList]

/--
Whether a text may follow a null check that has no argument: it is empty, or starts with a separator, a
closing parenthesis or a blank.
-/
def endsComparison : List Char → Bool
  | [] => true
  | c :: _ => c = ';' || c = ',' || c = ')' || Text.isBlank c

def bareNullCheck? (s : List Char) : Option (List Char) :=
  nullCheckSymbols.find? fun symbol => symbol.isPrefixOf s && endsComparison (s.drop symbol.length)

theorem length_pos_of_bareNullCheck? {s symbol : List Char} (h : bareNullCheck? s = some symbol) :
    0 < symbol.length := by
  have hpos : ∀ symbol ∈ nullCheckSymbols, 0 < symbol.length := by decide
  exact hpos symbol (List.mem_of_find?_eq_some h)

/--
Supply the argument of every null check that has none. A quote that is not closed is a character like any
other.
-/
def completeNullChecks : List Char → List Char
  | [] => []
  | c :: s =>
    match hq : if isQuote c then unquote? c s else none with
    | some (_, rest) =>
      have : rest.length < (c :: s).length := by
        split at hq
        · exact Nat.lt_succ_of_lt (length_lt_of_unquote? hq)
        · cases hq
      (c :: s).take ((c :: s).length - rest.length) ++ completeNullChecks rest
    | none =>
      match hb : bareNullCheck? (c :: s) with
      | some symbol =>
        have := length_pos_of_bareNullCheck? hb
        symbol ++ "null".toList ++ completeNullChecks ((c :: s).drop symbol.length)
      | none => c :: completeNullChecks s
termination_by s => s.length
decreasing_by all_goals simp only [List.length_cons, List.length_drop] at *; omega

def isTrailing (c : Char) : Bool :=
  c = ';' || c = ',' || Text.isBlank c

def prepare (text : String) : String :=
  String.ofList (Text.dropTrailing isTrailing (completeNullChecks text.toList))

end Criteria.Filter
