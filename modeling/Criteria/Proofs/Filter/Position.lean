import Criteria.Proofs.Filter.Conversion
import Criteria.Proofs.Filter.Idempotence
import Criteria.Proofs.Filter.Viability

/-!
This module contains the proof of where complaints about filter texts point to. They are made about what a text has been
prepared to, so the arguments that have been supplied before a place count as well. Without them the place is one in the
text itself, and what stands before it there can be continued to a filter.
-/

namespace Criteria.Filter

open Grammar

/--
What it means that a text becomes another when the argument `null` is supplied to `n` null checks in it.
-/
inductive Supplies : Nat → List Char → List Char → Prop where
  | nil : Supplies 0 [] []
  | plain {n : Nat} {c : Char} {s s' : List Char} : Supplies n s s' → Supplies n (c :: s) (c :: s')
  | supplied {n : Nat} {symbol s s' : List Char} : symbol ∈ nullCheckSymbols → Supplies n s s' →
      Supplies (n + 1) (symbol ++ s) (symbol ++ "null".toList ++ s')

section Supplies

variable {n : Nat} {s s' : List Char}

theorem Supplies.append_left (front : List Char) (h : Supplies n s s') :
    Supplies n (front ++ s) (front ++ s') := by
  induction front with
  | nil => exact h
  | cons c front ih => exact .plain ih

theorem supplies_refl (s : List Char) : Supplies 0 s s := by
  have h := Supplies.nil.append_left s
  rwa [List.append_nil] at h

theorem byteLength_of_supplies (h : Supplies n s s') : byteLength s' = byteLength s + 4 * n := by
  induction h with
  | nil => rfl
  | @plain n c s s' _ ih =>
    rw [byteLength_cons c s', byteLength_cons c s, ih, Nat.add_assoc]
  | supplied _ _ ih =>
    have hnull : byteLength "null".toList = 4 := by decide
    rw [byteLength_append, byteLength_append, byteLength_append, hnull, ih]
    omega

theorem length_of_supplies (h : Supplies n s s') : s'.length = s.length + 4 * n := by
  induction h with
  | nil => rfl
  | plain _ ih =>
    rw [List.length_cons, List.length_cons, ih]
    omega
  | supplied _ _ ih =>
    have hnull : "null".toList.length = 4 := rfl
    rw [List.length_append, List.length_append, List.length_append, hnull, ih]
    omega

end Supplies

section BareNullCheck

variable {c : Char} {name s rest : List Char}

theorem bareNullCheck?_eq_none_of_completeNullChecks
    (h : bareNullCheck? (c :: completeNullChecks s) = none) : bareNullCheck? (c :: s) = none := by
  cases hbare : bareNullCheck? (c :: s) with
  | none => rfl
  | some symbol =>
    rcases exists_of_bareNullCheck?_eq_some hbare with ⟨hmem, rest, hsymbol, hrest⟩
    rcases named_of_mem_nullCheckSymbols hmem with ⟨name, rfl, _, hletters⟩
    simp only [List.cons_append, List.append_assoc, List.nil_append, List.cons.injEq] at hsymbol
    rcases hsymbol with ⟨rfl, rfl⟩
    have hequals : completeNullChecks ('=' :: rest) = '=' :: completeNullChecks rest :=
      @completeNullChecks_append_of_keeps ['='] rest (keeps_equals_of_endsComparison hrest)
    rw [completeNullChecks_append_of_keeps (keeps_letters hletters _), hequals] at h
    rw [← endsComparison_of_completes (completes_completeNullChecks rest)] at hrest
    have hfound := bareNullCheck?_append hmem hrest
    simp only [List.cons_append, List.append_assoc, List.nil_append] at hfound
    rw [hfound] at h
    cases h

theorem completeNullChecks_of_cons (hquoted : isQuote c → unquote? c s = none)
    (h : completeNullChecks (c :: s) = c :: s) :
    bareNullCheck? (c :: s) = none ∧ completeNullChecks s = s := by
  cases hbare : bareNullCheck? (c :: s) with
  | none =>
    rw [completeNullChecks_plain hquoted hbare, List.cons.injEq] at h
    exact ⟨rfl, h.2⟩
  | some symbol =>
    rcases exists_of_bareNullCheck?_eq_some hbare with ⟨hmem, rest, hsymbol, hrest⟩
    rw [hsymbol, completeNullChecks_symbol hmem hrest] at h
    have hlength := congrArg List.length h
    have hle := (sublist_completeNullChecks rest).length_le
    simp only [List.length_append] at hlength
    have hnull : "null".toList.length = 4 := rfl
    omega

end BareNullCheck

section TracesBack

variable {s s' t u v : List Char}

def IsSeam (u v : List Char) : Prop :=
  Ends v ∨ ∀ c ∈ u.getLast?, isReserved c

/--
What it means that the front `u` of a completed text comes from a front of the text itself, and that this one can be
continued such that `t` follows `u` when it is completed.
-/
def TracesBack (s u v t : List Char) : Prop :=
  ∃ front rest n missing, s = front ++ rest ∧ Supplies n front u ∧ rest.length ≤ v.length ∧
    completeNullChecks (front ++ missing) = u ++ t

theorem TracesBack.extend (x x' : List Char) (k : Nat) (hsupplies : ∀ n front, Supplies n front u →
      Supplies (n + k) (x ++ front) (x' ++ u))
    (hcompleted : ∀ z, completeNullChecks z = u ++ t → completeNullChecks (x ++ z) = x' ++ (u ++ t))
    (h : TracesBack s u v t) : TracesBack (x ++ s) (x' ++ u) v t := by
  rcases h with ⟨front, rest, n, missing, hs, hfront, hlength, hmissing⟩
  refine ⟨x ++ front, rest, n + k, missing, ?_, hsupplies n front hfront, hlength, ?_⟩
  · rw [hs, List.append_assoc]
  · rw [List.append_assoc, List.append_assoc]
    exact hcompleted _ hmissing

theorem tracesBack_self {w w' : List Char} (hlength : w.length ≤ w'.length)
    (hfixed : completeNullChecks (u ++ t) = u ++ t) : TracesBack (u ++ w) u w' t :=
  ⟨u, w, 0, t, rfl, supplies_refl u, hlength, hfixed⟩

theorem length_le_of_completes (h : Completes s s') : s.length ≤ s'.length := by
  induction h with
  | nil => exact Nat.le_refl _
  | quoted _ _ _ ih => simpa using ih
  | bare _ _ _ ih =>
    simp only [List.length_append]
    omega
  | plain _ _ _ ih => simpa using ih

theorem tracesBack_quoted {quote : Char} {front content : List Char} (hquote : isQuote quote)
    (hquoted : ∀ tail, Quoted quote (front ++ tail) content tail)
    (hfixed : completeNullChecks (quote :: (front ++ u) ++ t) = quote :: (front ++ u) ++ t)
    (ih : completeNullChecks (u ++ t) = u ++ t → TracesBack s u v t) :
    TracesBack (quote :: (front ++ s)) (quote :: (front ++ u)) v t := by
  have hcompleted : ∀ z, completeNullChecks (quote :: (front ++ z)) =
      quote :: (front ++ completeNullChecks z) := fun z =>
    @completeNullChecks_append_of_keeps (quote :: front) z (keeps_quoted hquote (hquoted z))
  rw [List.cons_append, List.append_assoc, hcompleted, List.cons.injEq, List.append_cancel_left_eq] at hfixed
  refine TracesBack.extend (quote :: front) (quote :: front) 0 ?_ ?_ (ih hfixed.2)
  · intro n z hz
    exact hz.append_left (quote :: front)
  · intro z hz
    rw [List.cons_append, hcompleted, hz]
    rfl

theorem tracesBack_bare {symbol : List Char} (hmem : symbol ∈ nullCheckSymbols) (hends : endsComparison s)
    (h : Completes s (u ++ v))
    (hfixed : completeNullChecks (symbol ++ "null".toList ++ u ++ t) = symbol ++ "null".toList ++ u ++ t)
    (ih : completeNullChecks (u ++ t) = u ++ t → TracesBack s u v t) :
    TracesBack (symbol ++ s) (symbol ++ "null".toList ++ u) v t := by
  cases u with
  | nil =>
    -- What follows need not end the comparison, so that nothing would be supplied. The argument is written out instead.
    have hsupplies := Supplies.supplied hmem .nil
    rw [List.append_nil, List.append_nil] at hsupplies
    rw [List.append_nil] at hfixed ⊢
    refine ⟨symbol, s, 1, "null".toList ++ t, rfl, hsupplies, length_le_of_completes h, ?_⟩
    rw [← List.append_assoc, hfixed]
  | cons c u =>
    rw [← endsComparison_of_completes h] at hends
    have hkeeps : Keeps (symbol ++ "null".toList ++ (c :: u ++ t)) (c :: u ++ t) :=
      keeps_completed hmem hends
    rw [List.append_assoc _ _ t, completeNullChecks_append_of_keeps hkeeps,
      List.append_cancel_left_eq] at hfixed
    refine TracesBack.extend symbol (symbol ++ "null".toList) 1 ?_ ?_ (ih hfixed)
    · intro n front hfront
      exact .supplied hmem hfront
    · intro z hz
      have hcompletes := completes_completeNullChecks z
      rw [hz] at hcompletes
      rw [completeNullChecks_symbol hmem, hz]
      rw [← endsComparison_of_completes hcompletes]
      exact hends

theorem tracesBack_plain {c : Char} (hquoted : isQuote c → unquote? c s = none)
    (ht : ∀ c ∈ t, isQuote c = false) (h : Completes s (u ++ v))
    (hfixed : completeNullChecks (c :: u ++ t) = c :: u ++ t)
    (ih : completeNullChecks (u ++ t) = u ++ t → TracesBack s u v t) :
    TracesBack (c :: s) (c :: u) v t := by
  have hunquoted : isQuote c → unquote? c (u ++ t) = none := by
    intro hquote
    apply Quotation.unquote?_append_eq_none hquote ht
    exact Quotation.unquote?_eq_none_of_completes hquote h (hquoted hquote)
  rcases completeNullChecks_of_cons hunquoted hfixed with ⟨hbare, hfixed⟩
  refine TracesBack.extend [c] [c] 0 ?_ ?_ (ih hfixed)
  · intro n front hfront
    exact hfront.append_left [c]
  · intro z hz
    have hcompletes := completes_completeNullChecks z
    rw [hz] at hcompletes
    rw [List.singleton_append, completeNullChecks_plain, hz]
    · rfl
    · intro hquote
      rw [← Quotation.unquote?_eq_none_iff_of_completes hquote hcompletes]
      exact hunquoted hquote
    · apply bareNullCheck?_eq_none_of_completeNullChecks
      rw [hz]
      exact hbare

theorem eq_nil_of_null {front x w rest : List Char} (hnull : "null".toList = x ++ w)
    (hseam : IsSeam (front ++ x) (w ++ rest)) : x = [] ∨ w = [] := by
  have hword : ∀ c ∈ x ++ w, isReserved c = false := by
    rw [← hnull]
    exact isReserved_eq_false_of_any (by decide)
  rw [List.forall_mem_append] at hword
  cases hseam with
  | inl hends =>
    cases w with
    | nil => exact .inr rfl
    | cons c w =>
      have hc := hends c rfl
      rw [hword.2 c List.mem_cons_self] at hc
      cases hc
  | inr hlast =>
    cases hx : x.getLast? with
    | none => exact .inl (List.getLast?_eq_none_iff.mp hx)
    | some c =>
      have hc := hlast c (by rw [List.getLast?_append, hx]; rfl)
      rw [hword.1 c (List.mem_of_getLast? hx)] at hc
      cases hc

theorem isSeam_of_append (front : List Char) (h : IsSeam (front ++ u) v) : IsSeam u v := by
  refine h.imp id ?_
  intro hlast c hc
  apply hlast
  rw [List.getLast?_append, Option.mem_def.mp hc]
  rfl

theorem tracesBack_of_completes (h : Completes s (u ++ v)) (hseam : IsSeam u v)
    (ht : ∀ c ∈ t, isQuote c = false) (hfixed : completeNullChecks (u ++ t) = u ++ t) : TracesBack s u v t := by
  generalize hcompleted : u ++ v = completed at h
  induction h generalizing u with
  | nil =>
    rw [List.append_eq_nil_iff] at hcompleted
    rw [hcompleted.1] at hfixed ⊢
    exact tracesBack_self (Nat.zero_le _) hfixed
  | @quoted quote front content rest rest' hquote hquoted h ih =>
    rw [← List.cons_append, List.append_eq_append_iff] at hcompleted
    -- The place is in what is quoted, or behind it.
    rcases hcompleted with ⟨w, hfront, rfl⟩ | ⟨u, rfl, rfl⟩
    · rw [← List.cons_append, hfront, List.append_assoc]
      apply tracesBack_self _ hfixed
      rw [List.length_append, List.length_append]
      exact Nat.add_le_add_left (length_le_of_completes h) _
    · exact tracesBack_quoted hquote hquoted hfixed fun hfixed =>
        ih (isSeam_of_append _ hseam) hfixed rfl
  | @bare symbol rest rest' hmem hends h ih =>
    have hle := length_le_of_completes h
    have hbehind : ∀ u, rest' = u ++ v → IsSeam u v →
        completeNullChecks (symbol ++ "null".toList ++ u ++ t) = symbol ++ "null".toList ++ u ++ t →
        TracesBack (symbol ++ rest) (symbol ++ "null".toList ++ u) v t := by
      intro u hrest hseam hfixed
      rw [hrest] at h
      exact tracesBack_bare hmem hends h hfixed fun hfixed => ih hseam hfixed hrest.symm
    -- The place is in the symbol, or behind the argument. It is not in the argument, which is a word.
    rw [List.append_eq_append_iff] at hcompleted
    rcases hcompleted with ⟨w, hfront, rfl⟩ | ⟨u, rfl, hrest⟩
    · rw [List.append_eq_append_iff] at hfront
      rcases hfront with ⟨x, rfl, hnull⟩ | ⟨y, rfl, rfl⟩
      · rcases eq_nil_of_null hnull hseam with rfl | rfl
        · rw [List.append_nil] at hfixed ⊢
          apply tracesBack_self _ hfixed
          rw [List.length_append]
          exact Nat.le_add_left_of_le hle
        · rw [List.append_nil] at hnull
          subst hnull
          have hbehind := hbehind [] rfl (.inr (by simp))
          rw [List.append_nil] at hbehind
          exact hbehind hfixed
      · rw [List.append_assoc]
        apply tracesBack_self _ hfixed
        simp only [List.length_append]
        omega
    · exact hbehind u hrest (isSeam_of_append _ hseam) hfixed
  | @plain c s s' hquoted hbare h ih =>
    cases u with
    | nil =>
      rw [List.nil_append] at hcompleted
      rw [hcompleted]
      exact tracesBack_self (length_le_of_completes (.plain hquoted hbare h)) hfixed
    | cons d u =>
      cases hcompleted
      exact tracesBack_plain hquoted ht h hfixed fun hfixed =>
        ih (isSeam_of_append [c] hseam) hfixed rfl

end TracesBack

section Place

variable {R : Type} {settings : Settings} {registry : Registry R} {text : String} {e : SyntaxError}
  {s t u v : List Char}

theorem parse_prepare_of_completeNullChecks {value : Expression} (hcompleted : completeNullChecks s = u)
    (hderives : Derives (String.ofList u) value) :
    parse (prepare (String.ofList s)) = .ok value := by
  rcases exists_front_of_derives hderives with ⟨front, trailing, hu, hfirm, htrailing, hfront⟩
  rw [String.toList_ofList] at hu
  have hprepare : prepare (String.ofList s) = String.ofList front := by
    unfold prepare
    rw [String.toList_ofList, hcompleted, hu, dropTrailing_of_endsFirmly (fun _ => id) hfirm]
    intro c hc
    exact isTrailing_of_isBlank (htrailing c hc)
  rw [hprepare]
  exact parse_eq_ok_of_derives hfront

theorem isSeam_of_isBoundary {trailing : List Char} (h : IsBoundary (u ++ v) v)
    (htrailing : ∀ c ∈ trailing, isTrailing c) : IsSeam u (v ++ trailing) := by
  cases h with
  | inl hends =>
    left
    intro c hc
    cases v with
    | nil => exact isReserved_of_isTrailing (htrailing c (List.mem_of_head? hc))
    | cons d v => exact hends c hc
  | inr h =>
    right
    rcases h with ⟨front, c, hu, hc⟩
    rw [← List.singleton_append, ← List.append_assoc, List.append_cancel_right_eq] at hu
    rw [hu, List.getLast?_concat]
    intro d hd
    cases hd
    exact hc

/--
The place of a complaint about a filter text is counted in what the text has been prepared to. In the text itself the
place is four bytes further to the front for every null check before it whose argument had to be supplied. What stands
before it there can be continued to a filter. Where nothing had to be supplied the place is the one that is reported.
-/
theorem exists_of_ofFilter_eq_malformedFilter
    (h : Condition.ofFilter settings registry text = .error (.malformedFilter e)) :
    ∃ (front rest : String) (n : Nat), text = front ++ rest ∧
      e.position = front.utf8ByteSize + 4 * n ∧
      (∃ front' rest' : String, prepare text = front' ++ rest' ∧ e.position = front'.utf8ByteSize ∧
        Supplies n front.toList front'.toList) ∧
      (completeNullChecks text.toList = text.toList → n = 0) ∧
      ∃ continuation expression, parse (prepare (front ++ continuation)) = .ok expression := by
  rcases exists_of_parse_eq_error (Condition.ofFilter_eq_malformedFilter_iff.mp h).2 with
    ⟨u, v, t, value, hprepare, hposition, hboundary, ht, hderives⟩
  rcases Text.exists_append_eq_dropTrailing isTrailing (completeNullChecks text.toList) with
    ⟨trailing, hdrop, htrailing⟩
  have hcompleted : completeNullChecks text.toList = u ++ (v ++ trailing) := by
    unfold prepare at hprepare
    rw [String.toList_ofList] at hprepare
    rw [hdrop, hprepare, List.append_assoc]
  have hfixed : completeNullChecks (u ++ t) = u ++ t := by
    have hfixed := completeNullChecks_of_derives hderives
    rwa [String.toList_ofList] at hfixed
  have hcompletes := completes_completeNullChecks text.toList
  rw [hprepare] at hboundary
  rw [hcompleted] at hcompletes
  rcases tracesBack_of_completes hcompletes (isSeam_of_isBoundary hboundary htrailing) ht hfixed with
    ⟨front, rest, n, missing, htext, hsupplies, hlength, hmissing⟩
  refine ⟨String.ofList front, String.ofList rest, n, ?_, ?_, ?_, ?_, ?_⟩
  · rw [← String.ofList_append, ← htext, String.ofList_toList]
  · rw [hposition, byteLength_of_supplies hsupplies]
    rfl
  · refine ⟨String.ofList u, String.ofList v, ?_, hposition, ?_⟩
    · rw [← String.ofList_append, ← hprepare, String.ofList_toList]
    · rwa [String.toList_ofList, String.toList_ofList]
  · intro hsame
    have hlength' := length_of_supplies hsupplies
    rw [hsame, htext] at hcompleted
    have htotal := congrArg List.length hcompleted
    rw [List.length_append, List.length_append] at htotal
    omega
  · refine ⟨String.ofList missing, value, ?_⟩
    rw [← String.ofList_append]
    exact parse_prepare_of_completeNullChecks hmissing hderives

theorem exists_of_ofFilter_eq_malformedFilter_b :
    let registry : Registry (Option Value) := .empty
    Condition.ofFilter {} registry "a=null=;b" = .error (.malformedFilter ⟨.operator, 13⟩) ∧
      ∃ (front rest : String) (n : Nat), "a=null=;b" = front ++ rest ∧
        13 = front.utf8ByteSize + 4 * n ∧
        (∃ front' rest' : String, prepare "a=null=;b" = front' ++ rest' ∧ 13 = front'.utf8ByteSize ∧
          Supplies n front.toList front'.toList) ∧
        (completeNullChecks "a=null=;b".toList = "a=null=;b".toList → n = 0) ∧
        ∃ continuation expression, parse (prepare (front ++ continuation)) = .ok expression := by
  intro registry
  have herror : Condition.ofFilter {} registry "a=null=;b" = .error (.malformedFilter ⟨.operator, 13⟩) :=
    Condition.ofFilter_eq_malformedFilter_iff.mpr ⟨by decide +kernel, by decide +kernel⟩
  exact ⟨herror, exists_of_ofFilter_eq_malformedFilter herror⟩

theorem not_forall_position_le :
    ¬∀ (settings : Settings) (registry : Registry (Option Value)) (text : String) (e : SyntaxError),
      Condition.ofFilter settings registry text = .error (.malformedFilter e) →
        e.position ≤ text.utf8ByteSize := by
  intro h
  have hle := h {} .empty "a=null=;b" ⟨.operator, 13⟩
    (Condition.ofFilter_eq_malformedFilter_iff.mpr ⟨by decide +kernel, by decide +kernel⟩)
  exact absurd hle (by decide)

end Place

end Criteria.Filter
