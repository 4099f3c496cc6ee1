import Criteria.Proofs.Filter.Preparation
import Criteria.Proofs.Filter.RoundTrip

/-!
This module contains the proof that null checks which are written without an argument are completed, wherever in an
expression they are, and that all else is left as it is.
-/

namespace Criteria.Filter

open Grammar

structure Abridged where
  comparison : Comparison
  isBare : Bool

namespace Abridged

def write (abridged : Abridged) : List Char :=
  if abridged.isBare then
    abridged.comparison.selector.toList ++ abridged.comparison.symbol.toList
  else
    abridged.comparison.write

def completed (abridged : Abridged) : Comparison :=
  if abridged.isBare then { abridged.comparison with arguments := ["null"] } else abridged.comparison

structure IsWritable (abridged : Abridged) : Prop where
  comparison : abridged.comparison.IsWritable
  symbol : abridged.isBare → abridged.comparison.symbol.toList ∈ nullCheckSymbols

end Abridged

section CompletesTo

variable {c : Char} {s s' t t' : List Char}

theorem completeNullChecks_append_of_keeps {rest : List Char} (h : Keeps (s ++ rest) rest) :
    completeNullChecks (s ++ rest) = s ++ completeNullChecks rest := by
  rcases h with ⟨front, hs, hfront⟩
  rw [List.append_cancel_right hs, ← hfront, hs]

end CompletesTo

section Write

variable {α : Type} {writeAtom writeAtom' : α → List Char} {connective : Connective}

end Write

section Prepare

variable {tree : Formula Abridged} {expression : Expression} {trailing : List Char}

theorem completeNullChecks_of_isTrailing (h : ∀ c ∈ trailing, isTrailing c) :
    completeNullChecks trailing = trailing := by
  apply completeNullChecks_eq_self_of_keeps
  have hkeeps : Keeps (trailing ++ []) [] := by
    apply keeps_of_append
    intro c hc
    rcases isTrailing_iff.mp (h c hc) with (rfl | rfl) | hblank
    · decide
    · decide
    · exact ⟨isQuote_eq_false_of_isBlank hblank, ne_equals_of_isBlank hblank⟩
  rw [List.append_nil] at hkeeps
  exact hkeeps

theorem endsComparison_of_isTrailing (h : ∀ c ∈ trailing, isTrailing c) :
    endsComparison trailing := by
  cases trailing with
  | nil => rfl
  | cons c trailing =>
    rcases isTrailing_iff.mp (h c (List.mem_cons_self ..)) with (rfl | rfl) | hblank
    · rfl
    · rfl
    · exact endsComparison_of_isBlank hblank trailing

theorem endsFirmly_toText (hcomparisons : ∀ comparison ∈ expression.atoms, comparison.IsWritable)
    (hgroups : expression.EveryGroup fun _ children => children ≠ []) :
    EndsFirmly (write Comparison.write expression) := by
  rcases holdsLocally_chain (chain_write hcomparisons hgroups []) with ⟨front, hfront, hfirm, _⟩
  rw [List.append_cancel_right hfront]
  exact hfirm

theorem ofFilter_toText {R : Type} {settings : Settings} {registry : Registry R}
    (hcomparisons : ∀ comparison ∈ expression.atoms, comparison.IsWritable)
    (hflat : expression.IsFlat) :
    Condition.ofFilter settings registry (Expression.toText expression) =
      Condition.ofExpression settings registry expression := by
  have hderives := derives_toText hcomparisons hflat.forall_ne_nil
  rw [reread_of_isFlat hflat] at hderives
  have hfirm : EndsFirmly (Expression.toText expression).toList := by
    unfold Expression.toText
    rw [String.toList_ofList]
    exact endsFirmly_toText hcomparisons hflat.forall_ne_nil
  have hprepare := prepare_eq_self_of_derives hderives hfirm
  apply ofFilter_of_parse_prepare_eq_ok
  · rw [hprepare]
    exact parse_eq_ok_of_derives hderives
  · rw [hprepare]
    exact hfirm

end Prepare

end Criteria.Filter
