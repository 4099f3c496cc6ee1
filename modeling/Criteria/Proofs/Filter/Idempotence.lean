import Criteria.Proofs.Filter.Restriction

/-!
This module contains the proof that preparing a text that is prepared already changes nothing, whether it is an
expression or not.
-/

namespace Criteria.Filter

open Grammar

inductive Completes : List Char → List Char → Prop where
  | nil : Completes [] []
  | quoted {quote : Char} {front content rest rest' : List Char} : isQuote quote →
      (∀ tail, Quoted quote (front ++ tail) content tail) → Completes rest rest' →
      Completes (quote :: (front ++ rest)) (quote :: (front ++ rest'))
  | bare {symbol rest rest' : List Char} : symbol ∈ nullCheckSymbols → endsComparison rest →
      Completes rest rest' → Completes (symbol ++ rest) (symbol ++ "null".toList ++ rest')
  | plain {c : Char} {s s' : List Char} : (isQuote c → unquote? c s = none) →
      bareNullCheck? (c :: s) = none → Completes s s' → Completes (c :: s) (c :: s')

theorem completes_completeNullChecks (s : List Char) : Completes s (completeNullChecks s) := by
  fun_induction completeNullChecks s with
  | case1 => exact .nil
  | case2 c s content rest hquoted _ ih =>
    split at hquoted
    next hquote =>
      rcases holdsLocally_quoted hquote (quoted_of_unquote?_eq hquoted) with ⟨front, rfl, _, hlocal⟩
      have htake : (c :: (front ++ rest)).take ((c :: (front ++ rest)).length - rest.length) =
          c :: front := by
        rw [← List.cons_append, List.length_append, Nat.add_sub_cancel, List.take_left]
      rw [htake]
      exact .quoted hquote hlocal ih
    next => cases hquoted
  | case3 c s _ symbol hbare _ ih =>
    rcases exists_of_bareNullCheck?_eq_some hbare with ⟨hmem, rest, hs, hends⟩
    rw [hs] at ih ⊢
    rw [List.drop_left] at *
    exact .bare hmem hends ih
  | case4 c s hquoted hbare ih =>
    refine .plain ?_ hbare ih
    intro hquote
    rwa [dif_pos hquote] at hquoted

inductive Quotation where
  | opened
  | escaped
  | closed
  deriving DecidableEq

namespace Quotation

def next (quote : Char) : Quotation → Char → Quotation
  | opened, c => if c = '\\' then escaped else if c = quote then closed else opened
  | escaped, _ => opened
  | closed, _ => closed

variable {quote : Char} {s s' : List Char}

theorem foldl_next_closed (quote : Char) (s : List Char) : s.foldl (next quote) closed = closed := by
  induction s with
  | nil => rfl
  | cons c s ih => exact ih

theorem foldl_next_eq_closed_iff (hquote : quote ≠ '\\') :
    s.foldl (next quote) opened = closed ↔ (unquote? quote s).isSome := by
  fun_induction unquote? quote s with
  | case1 => simp
  | case2 => simp [next]
  | case3 c s ih => simpa [next] using ih
  | case4 s hlast hescape => simp [next, hquote, foldl_next_closed]
  | case5 c s hlast hescape hc ih =>
    have hbackslash : c ≠ '\\' := by
      intro hc
      cases s with
      | nil => exact hlast hc rfl
      | cons d s => exact hescape d s hc rfl
    simpa [next, hc, hbackslash] using ih

theorem foldl_next_append_null {symbol : List Char} (hquote : isQuote quote)
    (hmem : symbol ∈ nullCheckSymbols) (state : Quotation) :
    (symbol ++ "null".toList).foldl (next quote) state = symbol.foldl (next quote) state := by
  have hall : ∀ symbol ∈ nullCheckSymbols, ∀ state ∈ [opened, escaped, closed],
      (symbol ++ "null".toList).foldl (next '\'') state = symbol.foldl (next '\'') state ∧
        (symbol ++ "null".toList).foldl (next '"') state = symbol.foldl (next '"') state := by
    decide
  have hstate : state ∈ [opened, escaped, closed] := by
    cases state <;> decide
  rcases isQuote_iff.mp hquote with rfl | rfl
  · exact (hall symbol hmem state hstate).1
  · exact (hall symbol hmem state hstate).2

theorem foldl_next_of_completes (hquote : isQuote quote) (h : Completes s s') (state : Quotation) :
    s'.foldl (next quote) state = s.foldl (next quote) state := by
  induction h generalizing state with
  | nil => rfl
  | quoted _ _ _ ih =>
    rw [List.foldl_cons, List.foldl_cons, List.foldl_append, List.foldl_append, ih]
  | bare hmem _ _ ih =>
    rw [List.foldl_append, ih, foldl_next_append_null hquote hmem, ← List.foldl_append]
  | plain _ _ _ ih => exact ih _

theorem unquote?_eq_none_iff (hquote : isQuote quote) :
    unquote? quote s = none ↔ s.foldl (next quote) opened ≠ closed := by
  rw [Ne, foldl_next_eq_closed_iff (ne_backslash_of_isQuote hquote), Option.not_isSome_iff_eq_none]

theorem unquote?_eq_none_iff_of_completes (hquote : isQuote quote) (h : Completes s s') :
    unquote? quote s' = none ↔ unquote? quote s = none := by
  rw [unquote?_eq_none_iff hquote, unquote?_eq_none_iff hquote, foldl_next_of_completes hquote h]

theorem unquote?_eq_none_of_append {u t : List Char} (hquote : isQuote quote)
    (h : unquote? quote (u ++ t) = none) : unquote? quote u = none := by
  rw [unquote?_eq_none_iff hquote, List.foldl_append] at h
  rw [unquote?_eq_none_iff hquote]
  intro hclosed
  apply h
  rw [hclosed, foldl_next_closed]

theorem unquote?_eq_none_of_completes {u t : List Char} (hquote : isQuote quote)
    (h : Completes s (u ++ t)) (hnone : unquote? quote s = none) : unquote? quote u = none := by
  rw [← unquote?_eq_none_iff_of_completes hquote h] at hnone
  exact unquote?_eq_none_of_append hquote hnone

theorem foldl_next_ne_closed {t : List Char} {state : Quotation} (hquote : isQuote quote)
    (ht : ∀ c ∈ t, isQuote c = false) (hstate : state ≠ closed) :
    t.foldl (next quote) state ≠ closed := by
  induction t generalizing state with
  | nil => exact hstate
  | cons c t ih =>
    rw [List.forall_mem_cons] at ht
    have hc : c ≠ quote := by
      intro hc
      rw [hc, hquote] at ht
      exact absurd ht.1 (by decide)
    apply ih ht.2
    cases state with
    | opened =>
      change (if c = '\\' then escaped else if c = quote then closed else opened) ≠ closed
      rw [if_neg hc]
      split <;> decide
    | escaped =>
      change opened ≠ closed
      decide
    | closed => exact absurd rfl hstate

theorem unquote?_append_eq_none {u t : List Char} (hquote : isQuote quote)
    (ht : ∀ c ∈ t, isQuote c = false) (h : unquote? quote u = none) :
    unquote? quote (u ++ t) = none := by
  rw [unquote?_eq_none_iff hquote] at *
  rw [List.foldl_append]
  exact foldl_next_ne_closed hquote ht h

end Quotation

section Head

variable {c : Char} {s s' t : List Char}

theorem head?_of_completes (h : Completes s s') : s'.head? = s.head? := by
  cases h with
  | bare hmem _ _ =>
    rcases named_of_mem_nullCheckSymbols hmem with ⟨name, rfl, _⟩
    rfl
  | _ => rfl

theorem endsComparison_congr (h : s'.head? = s.head?) : endsComparison s' = endsComparison s := by
  cases s with
  | nil =>
    rw [List.head?_nil, List.head?_eq_none_iff] at h
    rw [h]
  | cons c s =>
    rw [List.head?_cons, List.head?_eq_some_iff] at h
    rcases h with ⟨s', rfl⟩
    rfl

theorem endsComparison_of_append (h : endsComparison (s ++ t)) : endsComparison s := by
  cases s with
  | nil => rfl
  | cons c s => exact h

theorem endsComparison_append (hs : endsComparison s) (ht : endsComparison t) :
    endsComparison (s ++ t) := by
  cases s with
  | nil => exact ht
  | cons c s => exact hs

end Head

section Plain

variable {c : Char} {s s' t u tail : List Char}

theorem exists_eq_cons_of_completes (h : Completes s (c :: s')) (hquote : isQuote c = false)
    (hc : c ≠ '=') : ∃ rest, s = c :: rest ∧ Completes rest s' := by
  generalize hcons : c :: s' = completed at h
  cases h with
  | nil => cases hcons
  | quoted hquote' =>
    cases hcons
    rw [hquote] at hquote'
    cases hquote'
  | bare hmem =>
    rcases named_of_mem_nullCheckSymbols hmem with ⟨name, rfl, _⟩
    cases hcons
    exact absurd rfl hc
  | plain _ _ h =>
    cases hcons
    exact ⟨_, rfl, h⟩

theorem exists_eq_append_of_completes {name : List Char} (h : Completes s (name ++ s'))
    (hletters : ∀ c ∈ name, c.isAlpha) : ∃ rest, s = name ++ rest ∧ Completes rest s' := by
  induction name generalizing s with
  | nil => exact ⟨s, rfl, h⟩
  | cons c name ih =>
    rw [List.forall_mem_cons] at hletters
    have hc := isReserved_eq_false_of_isAlpha hletters.1
    rcases exists_eq_cons_of_completes h (isQuote_eq_false_of_not_isReserved hc)
      (ne_equals_of_not_isReserved hc) with ⟨s, rfl, hname⟩
    rcases ih hname hletters.2 with ⟨rest, rfl, hrest⟩
    exact ⟨rest, rfl, hrest⟩

theorem endsComparison_of_completes (h : Completes s s') : endsComparison s' = endsComparison s :=
  endsComparison_congr (head?_of_completes h)

theorem exists_eq_equals_of_completes (h : Completes s ('=' :: tail)) (htail : endsComparison tail) :
    ∃ rest, s = '=' :: rest ∧ endsComparison rest := by
  generalize hcons : '=' :: tail = completed at h
  cases h with
  | nil => cases hcons
  | quoted hquote =>
    cases hcons
    exact absurd hquote (by decide)
  | bare hmem =>
    -- The name of a null check does not end a comparison.
    rcases named_of_mem_nullCheckSymbols hmem with ⟨name, rfl, hne, hletters⟩
    cases name with
    | nil => exact absurd rfl hne
    | cons c name =>
      simp only [List.cons_append, List.cons.injEq, true_and] at hcons
      have hc := isReserved_eq_false_of_isAlpha (hletters c List.mem_cons_self)
      rw [hcons, endsComparison_of_not_isReserved hc] at htail
      cases htail
  | plain _ _ h =>
    cases hcons
    rw [endsComparison_of_completes h] at htail
    exact ⟨_, rfl, htail⟩

theorem bareNullCheck?_eq_none_of_completes (hbare : bareNullCheck? (c :: s) = none)
    (h : Completes s (u ++ t)) (ht : endsComparison t) : bareNullCheck? (c :: u) = none := by
  cases hu : bareNullCheck? (c :: u) with
  | none => rfl
  | some symbol =>
    rcases exists_of_bareNullCheck?_eq_some hu with ⟨hmem, rest, hsymbol, hrest⟩
    rcases named_of_mem_nullCheckSymbols hmem with ⟨name, rfl, _, hletters⟩
    simp only [List.cons_append, List.append_assoc, List.nil_append, List.cons.injEq] at hsymbol
    rcases hsymbol with ⟨rfl, rfl⟩
    rw [List.append_assoc] at h
    rcases exists_eq_append_of_completes h hletters with ⟨s, rfl, hequals⟩
    rcases exists_eq_equals_of_completes hequals (endsComparison_append hrest ht) with ⟨s, rfl, hs⟩
    have hfound := bareNullCheck?_append hmem hs
    simp only [List.cons_append, List.append_assoc, List.nil_append] at hfound
    rw [hfound] at hbare
    cases hbare

end Plain

section Completed

variable {front s s' t u rest : List Char}

theorem eq_self_of_keeps (h : Keeps s rest) (hrest : completeNullChecks rest = rest) :
    completeNullChecks s = s := by
  rcases h with ⟨front, hs, hfront⟩
  rw [hfront, hrest, ← hs]

theorem exists_eq_append_of_endsFirmly (hfirm : EndsFirmly front) (h : front ++ s = u ++ t)
    (ht : ∀ c ∈ t, isTrailing c) : ∃ u', u = front ++ u' ∧ s = u' ++ t := by
  rw [List.append_eq_append_iff] at h
  rcases h with ⟨u', hu, hs⟩ | ⟨t', hfront, rfl⟩
  · exact ⟨u', hu, hs⟩
  · -- The front cannot reach into what is dropped.
    rcases hfirm with ⟨c, hc, hfirm⟩
    cases t' with
    | nil => exact ⟨[], by simpa using hfront.symm, by simp⟩
    | cons d t' =>
      have hmem : c ∈ d :: t' := by
        rw [hfront, List.getLast?_append_cons] at hc
        exact List.mem_of_getLast? hc
      rw [ht c (List.mem_append_left _ hmem)] at hfirm
      cases hfirm

theorem endsFirmly_of_quoted {quote : Char} {content : List Char} (hquote : isQuote quote)
    (h : ∀ tail, Quoted quote (front ++ tail) content tail) : EndsFirmly front := by
  rcases holdsLocally_quoted hquote (h []) with ⟨front', hfront, hfirm, _⟩
  rwa [List.append_cancel_right hfront]

theorem keeps_completed {symbol : List Char} (hmem : symbol ∈ nullCheckSymbols)
    (hrest : endsComparison rest) : Keeps (symbol ++ "null".toList ++ rest) rest := by
  rcases named_of_mem_nullCheckSymbols hmem with ⟨name, rfl, hne, hletters⟩
  have hmany : Many Char.isAlpha (name ++ '=' :: ("null".toList ++ rest)) name
      ('=' :: ("null".toList ++ rest)) := many_iff.mpr ⟨hne, rfl, hletters⟩
  have hnull : Arguments ("null".toList ++ rest) ["null"] rest :=
    .single (.bare (word_append (by decide) (isReserved_eq_false_of_any (by decide)) rest))
  have hkeeps := keeps_trans (keeps_symbol (.named hmany) hnull hrest) (keeps_arguments hnull)
  simpa using hkeeps

theorem completeNullChecks_of_completes (h : Completes s (u ++ t)) (ht : ∀ c ∈ t, isTrailing c) :
    completeNullChecks u = u := by
  generalize hcompleted : u ++ t = completed at h
  induction h generalizing u with
  | nil =>
    rw [(List.append_eq_nil_iff.mp hcompleted).1, completeNullChecks_nil]
  | @quoted quote front content rest rest' hquote hquoted _ ih =>
    have hfirm := endsFirmly_cons quote (endsFirmly_of_quoted hquote hquoted)
    rcases exists_eq_append_of_endsFirmly hfirm hcompleted.symm ht with ⟨u, rfl, hrest⟩
    exact eq_self_of_keeps (keeps_quoted hquote (hquoted u)) (ih hrest.symm)
  | @bare symbol rest rest' hmem hends h ih =>
    have hfirm : EndsFirmly (symbol ++ "null".toList) :=
      endsFirmly_append symbol ⟨'l', rfl, by decide⟩
    rcases exists_eq_append_of_endsFirmly hfirm hcompleted.symm ht with ⟨u, rfl, rfl⟩
    rw [← endsComparison_of_completes h] at hends
    exact eq_self_of_keeps (keeps_completed hmem (endsComparison_of_append hends)) (ih rfl)
  | @plain c s s' hquoted hbare h ih =>
    cases u with
    | nil => exact completeNullChecks_nil
    | cons d u =>
      cases hcompleted
      rw [completeNullChecks_plain, ih rfl]
      · intro hquote
        exact Quotation.unquote?_eq_none_of_completes hquote h (hquoted hquote)
      · exact bareNullCheck?_eq_none_of_completes hbare h (endsComparison_of_isTrailing ht)

end Completed

theorem dropTrailing_dropTrailing (p : Char → Bool) (s : List Char) :
    Text.dropTrailing p (Text.dropTrailing p s) = Text.dropTrailing p s := by
  have hdrop := Text.dropTrailing_append (s := Text.dropTrailing p s) (t := [])
    (fun _ hc => Text.not_of_getLast?_dropTrailing hc) (List.forall_mem_nil _)
  rwa [List.append_nil] at hdrop

/-- Preparing a text twice is the same as preparing it once. -/
theorem prepare_prepare (text : String) : prepare (prepare text) = prepare text := by
  have hcompletes := completes_completeNullChecks text.toList
  rcases Text.exists_append_eq_dropTrailing isTrailing (completeNullChecks text.toList) with
    ⟨trailing, hdrop, htrailing⟩
  rw [hdrop] at hcompletes
  unfold prepare
  rw [String.toList_ofList, completeNullChecks_of_completes hcompletes htrailing,
    dropTrailing_dropTrailing]

end Criteria.Filter
