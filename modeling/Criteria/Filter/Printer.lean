import Criteria.Filter.Expression

/-!
This module contains the writing of filter expressions. An argument is quoted where it has to be, and a
disjunction within a conjunction is put in parentheses.
-/

namespace Criteria.Filter

def writeArgument (argument : String) : List Char :=
  let s := argument.toList
  if !s.isEmpty && !s.any isReserved then
    s
  else
    '\'' :: (s.flatMap fun c => if c = '\'' || c = '\\' then ['\\', c] else [c]) ++ ['\'']

def writeArguments : List String → List Char
  | [argument] => writeArgument argument
  | arguments => '(' :: List.intercalate [','] (arguments.map writeArgument) ++ [')']

def Comparison.write (comparison : Comparison) : List Char :=
  comparison.selector.toList ++ comparison.symbol.toList ++ writeArguments comparison.arguments

variable {α : Type}

def needsParentheses : Connective → Formula α → Bool
  | .and, .group .or _ => true
  | _, _ => false

mutual

def write (writeAtom : α → List Char) : Formula α → List Char
  | .atom a => writeAtom a
  | .group connective children =>
    List.intercalate [separatorChar connective] (writeChildren writeAtom connective children)

def writeChildren (writeAtom : α → List Char) (connective : Connective) :
    List (Formula α) → List (List Char)
  | [] => []
  | child :: children =>
    (if needsParentheses connective child then '(' :: write writeAtom child ++ [')']
      else write writeAtom child) :: writeChildren writeAtom connective children

end

def writeChild (writeAtom : α → List Char) (connective : Connective) (child : Formula α) :
    List Char :=
  if needsParentheses connective child then '(' :: write writeAtom child ++ [')']
  else write writeAtom child

theorem writeChildren_eq (writeAtom : α → List Char) (connective : Connective)
    (children : List (Formula α)) :
    writeChildren writeAtom connective children = children.map (writeChild writeAtom connective) := by
  induction children with
  | nil => rfl
  | cons child children ih => rw [writeChildren, ih, List.map_cons, writeChild]

@[simp]
theorem write_atom (writeAtom : α → List Char) (a : α) :
    write writeAtom (.atom a) = writeAtom a := by rw [write]

@[simp]
theorem write_group (writeAtom : α → List Char) (connective : Connective)
    (children : List (Formula α)) :
    write writeAtom (.group connective children) =
      List.intercalate [separatorChar connective] (children.map (writeChild writeAtom connective)) := by
  rw [write, writeChildren_eq]

def Expression.toText (expression : Expression) : String :=
  String.ofList (write Comparison.write expression)

end Criteria.Filter
