import Criteria.Filter.NullCheck
import Criteria.Proofs.Filter.Separator
import Criteria.Proofs.Filter.Soundness
import Criteria.Proofs.Filter.Writing

/-!
This module contains the proof that what the front of a text says does not depend on what comes after it, and that
the front which says something ends in a character that is not dropped at the end of a text.
-/

namespace Criteria.Filter

open Grammar

section EndsFirmly

variable {c : Char} {s : List Char}

def EndsFirmly (s : List Char) : Prop :=
  ∃ c ∈ s.getLast?, isTrailing c = false

theorem endsFirmly_append (front : List Char) (h : EndsFirmly s) : EndsFirmly (front ++ s) := by
  rcases h with ⟨c, hc, hfirm⟩
  refine ⟨c, ?_, hfirm⟩
  rw [Option.mem_def] at hc ⊢
  rw [List.getLast?_append, hc, Option.some_or]

theorem endsFirmly_cons (c : Char) (h : EndsFirmly s) : EndsFirmly (c :: s) :=
  endsFirmly_append [c] h

theorem endsFirmly_singleton (h : isTrailing c = false) : EndsFirmly [c] := by
  exact ⟨c, rfl, h⟩

theorem ne_nil_of_endsFirmly (h : EndsFirmly s) : s ≠ [] := by
  rcases h with ⟨c, hc, _⟩
  intro hnil
  rw [hnil] at hc
  cases hc

theorem isTrailing_iff : isTrailing c ↔ (c = ';' ∨ c = ',') ∨ Text.isBlank c := by
  unfold isTrailing
  rw [Bool.or_eq_true, Bool.or_eq_true, decide_eq_true_iff, decide_eq_true_iff]

theorem isTrailing_of_isBlank (h : Text.isBlank c) : isTrailing c := by
  rw [isTrailing_iff]
  exact .inr h

theorem isReserved_of_isTrailing (h : isTrailing c) : isReserved c := by
  rcases isTrailing_iff.mp h with (rfl | rfl) | hblank
  · decide
  · decide
  · exact isReserved_of_isBlank hblank

theorem isTrailing_eq_false_of_not_isReserved (h : isReserved c = false) : isTrailing c = false := by
  rw [← Bool.not_eq_true]
  intro htrailing
  rw [isReserved_of_isTrailing htrailing] at h
  cases h

theorem isTrailing_eq_false_of_isQuote (h : isQuote c) : isTrailing c = false := by
  rcases isQuote_iff.mp h with rfl | rfl
  · decide
  · decide

end EndsFirmly

/--
What it means that a relation between a text and a rest of it holds whatever the rest may be.
-/
def HoldsLocally (relation : List Char → List Char → Prop) (s rest : List Char) : Prop :=
  ∃ front, s = front ++ rest ∧ EndsFirmly front ∧ ∀ rest', relation (front ++ rest') rest'

theorem HoldsLocally.imp {relation relation' : List Char → List Char → Prop} {s rest : List Char}
    (himp : ∀ s rest, relation s rest → relation' s rest) (h : HoldsLocally relation s rest) :
    HoldsLocally relation' s rest := by
  rcases h with ⟨front, hs, hfirm, hlocal⟩
  refine ⟨front, hs, hfirm, ?_⟩
  intro rest'
  exact himp _ _ (hlocal rest')

section Token

variable {s rest : List Char}

theorem blanks_iff :
    Blanks s rest ↔ ∃ front, s = front ++ rest ∧ ∀ c ∈ front, Text.isBlank c := by
  constructor
  · intro h
    induction h with
    | nil => exact ⟨[], rfl, by simp⟩
    | @cons c s rest hblank _ ih =>
      rcases ih with ⟨front, rfl, hfront⟩
      refine ⟨c :: front, rfl, ?_⟩
      rw [List.forall_mem_cons]
      exact ⟨hblank, hfront⟩
  · intro h
    rcases h with ⟨front, rfl, hfront⟩
    induction front with
    | nil => exact .nil
    | cons c front ih =>
      rw [List.forall_mem_cons] at hfront
      exact .cons hfront.1 (ih hfront.2)

theorem blanks_append {front : List Char} (h : ∀ c ∈ front, Text.isBlank c) (rest : List Char) :
    Blanks (front ++ rest) rest := by
  rw [blanks_iff]
  exact ⟨front, rfl, h⟩

theorem holdsLocally_word {content : List Char} (h : Word s content rest) :
    HoldsLocally (fun s rest => Word s content rest) s rest := by
  have hword := many_iff.mp h
  rcases hword with ⟨hne, hs, hall⟩
  refine ⟨content, hs, ?_, ?_⟩
  · refine ⟨content.getLast hne, List.getLast?_eq_some_getLast hne, ?_⟩
    apply isTrailing_eq_false_of_not_isReserved
    have hlast := hall _ (List.getLast_mem hne)
    rw [Bool.not_eq_true'] at hlast
    exact hlast
  · intro rest'
    apply many_iff.mpr
    exact ⟨hne, rfl, hall⟩

theorem holdsLocally_quoted {quote : Char} {content : List Char} (hquote : isQuote quote)
    (h : Quoted quote s content rest) :
    HoldsLocally (fun s rest => Quoted quote s content rest) s rest := by
  induction h with
  | close =>
    refine ⟨[quote], rfl, endsFirmly_singleton (isTrailing_eq_false_of_isQuote hquote), ?_⟩
    intro rest'
    exact .close
  | @escaped c s content rest _ ih =>
    rcases ih with ⟨front, rfl, hfirm, hlocal⟩
    refine ⟨'\\' :: c :: front, rfl, endsFirmly_cons _ (endsFirmly_cons _ hfirm), ?_⟩
    intro rest'
    exact .escaped (hlocal rest')
  | @plain c s content rest hc hbackslash _ ih =>
    rcases ih with ⟨front, rfl, hfirm, hlocal⟩
    refine ⟨c :: front, rfl, endsFirmly_cons _ hfirm, ?_⟩
    intro rest'
    exact .plain hc hbackslash (hlocal rest')

theorem holdsLocally_argument {value : String} (h : Argument s value rest) :
    HoldsLocally (fun s rest => Argument s value rest) s rest := by
  cases h with
  | bare h => exact (holdsLocally_word h).imp fun _ _ => .bare
  | @quoted quote _ _ _ hquote h =>
    rcases holdsLocally_quoted hquote h with ⟨front, rfl, hfirm, hlocal⟩
    refine ⟨quote :: front, rfl, endsFirmly_cons _ hfirm, ?_⟩
    intro rest'
    exact .quoted hquote (hlocal rest')

theorem holdsLocally_argumentGroup {values : List String} (h : ArgumentGroup s values rest) :
    HoldsLocally (fun s rest => ArgumentGroup s values rest) s rest := by
  induction h with
  | one hblanks hargument hclose =>
    rcases blanks_iff.mp hblanks with ⟨blanks, rfl, hall⟩
    rcases holdsLocally_argument hargument with ⟨front, rfl, _, hlocal⟩
    rcases blanks_iff.mp hclose with ⟨blanks', rfl, hall'⟩
    refine ⟨blanks ++ (front ++ (blanks' ++ [')'])), by simp, ?_, ?_⟩
    · apply endsFirmly_append
      apply endsFirmly_append
      apply endsFirmly_append
      apply endsFirmly_singleton
      decide
    · intro rest'
      simp only [List.append_assoc, List.cons_append, List.nil_append]
      exact .one (blanks_append hall _) (hlocal _) (blanks_append hall' _)
  | cons hblanks hargument hcomma _ ih =>
    rcases blanks_iff.mp hblanks with ⟨blanks, rfl, hall⟩
    rcases holdsLocally_argument hargument with ⟨front, rfl, _, hlocal⟩
    rcases blanks_iff.mp hcomma with ⟨blanks', rfl, hall'⟩
    rcases ih with ⟨others, rfl, hfirm, hothers⟩
    refine ⟨blanks ++ (front ++ (blanks' ++ ',' :: others)), by simp, ?_, ?_⟩
    · apply endsFirmly_append
      apply endsFirmly_append
      apply endsFirmly_append
      exact endsFirmly_cons _ hfirm
    · intro rest'
      simp only [List.append_assoc, List.cons_append]
      exact .cons (blanks_append hall _) (hlocal _) (blanks_append hall' _) (hothers rest')

theorem holdsLocally_arguments {values : List String} (h : Arguments s values rest) :
    HoldsLocally (fun s rest => Arguments s values rest) s rest := by
  cases h with
  | single h => exact (holdsLocally_argument h).imp fun _ _ => .single
  | group h =>
    rcases holdsLocally_argumentGroup h with ⟨front, rfl, hfirm, hlocal⟩
    refine ⟨'(' :: front, rfl, endsFirmly_cons _ hfirm, ?_⟩
    intro rest'
    exact .group (hlocal rest')

theorem isSymbol_of_symbol {value : String} (h : Symbol s value rest) :
    s = value.toList ++ rest ∧ IsSymbol value := by
  cases h with
  | equal => exact ⟨rfl, .equal⟩
  | notEqual => exact ⟨rfl, .notEqual⟩
  | named h =>
    rcases many_iff.mp h with ⟨hne, rfl, hletters⟩
    refine ⟨?_, .named hne hletters⟩
    simp

end Token

section Chain

theorem separator_append_of_separator {connective : Connective} {c : Char} {s rest : List Char}
    (h : Separator connective s (c :: rest)) :
    ∃ front, s = front ++ c :: rest ∧
      ∀ rest', Separator connective (front ++ c :: rest') (c :: rest') := by
  cases h with
  | char hblanks =>
    rcases blanks_iff.mp hblanks with ⟨blanks, rfl, hall⟩
    refine ⟨blanks ++ [separatorChar connective], by simp, ?_⟩
    intro rest'
    rw [List.append_assoc]
    exact .char (blanks_append hall _)
  | @word blank _ _ word _ hblank hblanks hword hnext =>
    rcases blanks_iff.mp hblanks with ⟨blanks, rfl, hall⟩
    refine ⟨blank :: (blanks ++ word), by simp, ?_⟩
    intro rest'
    rw [List.cons_append, List.append_assoc]
    exact .word hblank (blanks_append hall _) hword hnext

-- The recursion is on the derivations.
mutual

theorem holdsLocally_chain {connective : Connective} {s rest : List Char} {value : Expression}
    (h : Chain connective s value rest) :
    HoldsLocally (fun s rest => Chain connective s value rest) s rest := by
  match h with
  | .single hpart => exact (holdsLocally_part hpart).imp fun _ _ => .single
  | .group hparts => exact (holdsLocally_parts hparts).imp fun _ _ => .group

theorem holdsLocally_parts {connective : Connective} {s rest : List Char} {parts : List Expression}
    (h : Grammar.Parts connective s parts rest) :
    HoldsLocally (fun s rest => Grammar.Parts connective s parts rest) s rest := by
  match h with
  | .one hpart => exact (holdsLocally_part hpart).imp fun _ _ => .one
  | .cons hpart hseparator hparts =>
    rcases holdsLocally_part hpart with ⟨front, rfl, _, hlocal⟩
    rcases holdsLocally_parts hparts with ⟨others, rfl, hfirm, hothers⟩
    cases others with
    | nil => exact absurd rfl (ne_nil_of_endsFirmly hfirm)
    | cons c others =>
      rcases separator_append_of_separator hseparator with ⟨separator, rfl, hjoins⟩
      refine ⟨front ++ (separator ++ c :: others), by simp, ?_, ?_⟩
      · apply endsFirmly_append
        exact endsFirmly_append _ hfirm
      · intro rest'
        simp only [List.append_assoc, List.cons_append]
        exact .cons (hlocal _) (hjoins _) (hothers rest')

theorem holdsLocally_part {connective : Connective} {s rest : List Char} {value : Expression}
    (h : Part connective s value rest) :
    HoldsLocally (fun s rest => Part connective s value rest) s rest := by
  match h with
  | .conjunction hchain => exact (holdsLocally_chain hchain).imp fun _ _ => .conjunction
  | @Part.comparison _ _ _ _ _ _ symbol _ hblanks hselector hsymbol harguments =>
    rcases blanks_iff.mp hblanks with ⟨blanks, rfl, hall⟩
    rcases holdsLocally_word hselector with ⟨selector, rfl, _, hword⟩
    rcases isSymbol_of_symbol hsymbol with ⟨rfl, hvalid⟩
    rcases holdsLocally_arguments harguments with ⟨front, rfl, hfirm, hlocal⟩
    refine ⟨blanks ++ (selector ++ (symbol.toList ++ front)), by simp, ?_, ?_⟩
    · apply endsFirmly_append
      apply endsFirmly_append
      exact endsFirmly_append _ hfirm
    · intro rest'
      simp only [List.append_assoc]
      exact .comparison (blanks_append hall _) (hword _) (symbol_append hvalid _) (hlocal rest')
  | .parentheses hopen hchain hclose =>
    rcases blanks_iff.mp hopen with ⟨blanks, rfl, hall⟩
    rcases holdsLocally_chain hchain with ⟨front, rfl, _, hlocal⟩
    rcases blanks_iff.mp hclose with ⟨blanks', rfl, hall'⟩
    refine ⟨blanks ++ '(' :: (front ++ (blanks' ++ [')'])), by simp, ?_, ?_⟩
    · apply endsFirmly_append
      apply endsFirmly_cons
      apply endsFirmly_append
      apply endsFirmly_append
      apply endsFirmly_singleton
      decide
    · intro rest'
      simp only [List.append_assoc, List.cons_append, List.nil_append]
      exact .parentheses (blanks_append hall _) (hlocal _) (blanks_append hall' _)

end

end Chain

end Criteria.Filter
