import Criteria.Filter.Condition
import Criteria.Proofs.Filter.Completeness
import Criteria.Proofs.Filter.NullCheck

/-!
This module contains the proof that preparing a text that is already an expression only drops the blanks at its end.
-/

namespace Criteria.Filter

open Grammar

variable {text : String} {expression : Expression} {s front trailing : List Char}

theorem completeNullChecks_eq_self_of_keeps (h : Keeps s []) : completeNullChecks s = s := by
  rcases h with ⟨front, hs, hfront⟩
  rw [completeNullChecks_nil] at hfront
  rw [hfront, ← hs]

theorem dropTrailing_of_endsFirmly {p : Char → Bool} (hp : ∀ c, p c → isTrailing c)
    (h : EndsFirmly front) (htrailing : ∀ c ∈ trailing, p c) :
    Text.dropTrailing p (front ++ trailing) = front := by
  rcases h with ⟨c, hc, hfirm⟩
  refine Text.dropTrailing_append ?_ htrailing
  intro d hd
  rw [Option.mem_unique hd hc, ← Bool.not_eq_true]
  intro hpc
  rw [hp c hpc] at hfirm
  cases hfirm

theorem exists_front_of_derives (h : Derives text expression) :
    ∃ front trailing, text.toList = front ++ trailing ∧ EndsFirmly front ∧
      (∀ c ∈ trailing, Text.isBlank c) ∧ Derives (String.ofList front) expression := by
  rcases h with ⟨start, rest, hstart, hchain, hrest⟩
  rcases blanks_iff.mp hstart with ⟨blanks, htext, hblanks⟩
  rcases holdsLocally_chain hchain with ⟨front, rfl, hfirm, hlocal⟩
  rcases blanks_iff.mp hrest with ⟨trailing, hnil, htrailing⟩
  rw [List.append_nil] at hnil
  subst hnil
  refine ⟨blanks ++ front, rest, ?_, endsFirmly_append _ hfirm, htrailing, ?_⟩
  · rw [htext, List.append_assoc]
  · have hfront := hlocal []
    rw [List.append_nil] at hfront
    refine ⟨front, [], ?_, hfront, .nil⟩
    rw [String.toList_ofList]
    exact blanks_append hblanks front

theorem completeNullChecks_of_derives (h : Derives text expression) :
    completeNullChecks text.toList = text.toList := by
  rcases h with ⟨start, rest, hstart, hchain, hrest⟩
  have hinside := keeps_chain hchain (endsComparison_of_blanks hrest rfl)
  apply completeNullChecks_eq_self_of_keeps
  exact keeps_trans (keeps_blanks hstart) (keeps_trans hinside (keeps_blanks hrest))

theorem prepare_eq_self_of_derives (h : Derives text expression) (hfirm : EndsFirmly text.toList) :
    prepare text = text := by
  have hdrop : Text.dropTrailing isTrailing (text.toList ++ []) = text.toList :=
    dropTrailing_of_endsFirmly (fun _ => id) hfirm (List.forall_mem_nil _)
  rw [List.append_nil] at hdrop
  unfold prepare
  rw [completeNullChecks_of_derives h, hdrop, String.ofList_toList]

theorem all_isBlank_of_endsFirmly (h : EndsFirmly front) : front.all Text.isBlank = false := by
  rcases h with ⟨c, hc, hfirm⟩
  rw [List.all_eq_false]
  refine ⟨c, List.mem_of_getLast? hc, ?_⟩
  intro hblank
  rw [isTrailing_of_isBlank hblank] at hfirm
  cases hfirm

theorem ofFilter_of_parse_prepare_eq_ok {R : Type} {settings : Settings} {registry : Registry R}
    (hparse : parse (prepare text) = .ok expression) (hfirm : EndsFirmly (prepare text).toList) :
    Condition.ofFilter settings registry text =
      Condition.ofExpression settings registry expression := by
  unfold Condition.ofFilter
  dsimp only
  rw [all_isBlank_of_endsFirmly hfirm, hparse]
  rfl

/--
Preparing a text that is an expression only drops the blanks at its end. What is prepared is the same expression, and
the condition that the text stands for is the one that the expression stands for.
-/
theorem prepare_of_parse_eq_ok (h : parse text = .ok expression) :
    prepare text = String.ofList (Text.dropTrailing Text.isBlank text.toList) ∧
      parse (prepare text) = parse text ∧
      ∀ {R : Type} (settings : Settings) (registry : Registry R),
        Condition.ofFilter settings registry text =
          Condition.ofExpression settings registry expression := by
  have hderives := derives_of_parse_eq_ok h
  rcases exists_front_of_derives hderives with ⟨front, trailing, htext, hfirm, htrailing, hfront⟩
  have hprepare : prepare text = String.ofList front := by
    unfold prepare
    rw [completeNullChecks_of_derives hderives, htext]
    rw [dropTrailing_of_endsFirmly (fun _ => id) hfirm]
    intro c hc
    exact isTrailing_of_isBlank (htrailing c hc)
  have hparse : parse (prepare text) = .ok expression := by
    rw [hprepare]
    exact parse_eq_ok_of_derives hfront
  refine ⟨?_, ?_, ?_⟩
  · rw [hprepare, htext]
    rw [dropTrailing_of_endsFirmly (fun _ => isTrailing_of_isBlank) hfirm htrailing]
  · rw [hparse, h]
  · intro R settings registry
    apply ofFilter_of_parse_prepare_eq_ok hparse
    rw [hprepare, String.toList_ofList]
    exact hfirm

theorem prepare_of_parse_eq_ok_quoted :
    let text := "title=='it\\'s =null=; \"' , note=isnull=null \n"
    let expression : Expression :=
      .group .or [.atom ⟨"title", "==", ["it's =null=; \""]⟩, .atom ⟨"note", "=isnull=", ["null"]⟩]
    parse text = .ok expression ∧
      prepare text = String.ofList (Text.dropTrailing Text.isBlank text.toList) ∧
      parse (prepare text) = parse text ∧
      ∀ {R : Type} (settings : Settings) (registry : Registry R),
        Condition.ofFilter settings registry text =
          Condition.ofExpression settings registry expression := by
  intro text expression
  have htitle : Word "title=='it\\'s =null=; \"' , note=isnull=null \n".toList "title".toList
      "=='it\\'s =null=; \"' , note=isnull=null \n".toList :=
    many_iff.mpr ⟨by decide, rfl, List.all_eq_true.mp (by decide)⟩
  have hnote : Word "note=isnull=null \n".toList "note".toList "=isnull=null \n".toList :=
    many_iff.mpr ⟨by decide, rfl, List.all_eq_true.mp (by decide)⟩
  have hisnull : Symbol "=isnull=null \n".toList "=isnull=" "null \n".toList :=
    @Symbol.named _ "isnull".toList _
      (many_iff.mpr ⟨by decide, rfl, List.all_eq_true.mp (by decide)⟩)
  have hnull : Word "null \n".toList "null".toList " \n".toList :=
    many_iff.mpr ⟨by decide, rfl, List.all_eq_true.mp (by decide)⟩
  have hfirst : Part .and text.toList (.atom ⟨"title", "==", ["it's =null=; \""]⟩)
      " , note=isnull=null \n".toList :=
    .comparison .nil htitle .equal (.single (.quoted (by decide) (quoted_of_unquote?_eq rfl)))
  have hsecond : Part .and " note=isnull=null \n".toList (.atom ⟨"note", "=isnull=", ["null"]⟩)
      " \n".toList :=
    .comparison (.cons rfl .nil) hnote hisnull (.single (.bare hnull))
  have hseparator : Separator .or " , note=isnull=null \n".toList " note=isnull=null \n".toList :=
    .char (.cons rfl .nil)
  have hchain : Chain .or text.toList expression " \n".toList :=
    .group (.cons (.conjunction (.single hfirst)) hseparator (.one (.conjunction (.single hsecond))))
  have hparse : parse text = .ok expression :=
    parse_eq_ok_of_derives ⟨_, _, .nil, hchain, .cons rfl (.cons rfl .nil)⟩
  exact ⟨hparse, prepare_of_parse_eq_ok hparse⟩

end Criteria.Filter
