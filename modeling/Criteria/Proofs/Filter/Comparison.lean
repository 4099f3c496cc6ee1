import Criteria.Proofs.Filter.Token

/-!
This module contains the proof that arguments and comparisons are read as the grammar of filter expressions has
them.
-/

namespace Criteria.Filter

open Grammar

theorem quoted_of_unquote?_eq {quote : Char} {s content rest : List Char}
    (h : unquote? quote s = some (content, rest)) : Quoted quote s content rest := by
  fun_induction unquote? quote s generalizing content rest with
  | case1 => cases h
  | case2 => cases h
  | case3 c s ih =>
    rw [Option.map_eq_some_iff] at h
    rcases h with ⟨⟨_, _⟩, hs, heq⟩
    cases heq
    exact .escaped (ih hs)
  | case4 =>
    cases h
    exact .close
  | case5 c s hlast hescape hc ih =>
    rw [Option.map_eq_some_iff] at h
    rcases h with ⟨⟨_, _⟩, hs, heq⟩
    cases heq
    refine .plain hc ?_ (ih hs)
    intro hbackslash
    cases s with
    | nil => exact hlast hbackslash rfl
    | cons d s => exact hescape d s hbackslash rfl

theorem unquote?_eq_of_quoted {quote : Char} {s content rest : List Char} (hquote : quote ≠ '\\')
    (h : Quoted quote s content rest) : unquote? quote s = some (content, rest) := by
  induction h with
  | close => simp [unquote?, hquote]
  | escaped _ ih => simp [unquote?, ih]
  | plain hc hbackslash _ ih => simp [unquote?, hc, hbackslash, ih]

theorem argument_of_reads {s rest : List Char} {value : String}
    (h : Reads (argument s) value rest) : Argument s value rest := by
  cases s with
  | nil =>
    rcases h with ⟨hlt, _⟩
    exact absurd hlt (Nat.not_lt_zero _)
  | cons c s =>
    unfold argument at h
    dsimp only at h
    split at h
    next hquote =>
      rcases h with ⟨_, h⟩
      split at h
      next hquoted =>
        cases h
        apply Argument.quoted hquote
        apply quoted_of_unquote?_eq hquoted
      next => cases h
    next =>
      have hword := word_of_reads h
      rcases hword with ⟨content, hcontent, rfl⟩
      exact .bare hcontent

theorem isQuote_iff {c : Char} : isQuote c ↔ c = '\'' ∨ c = '"' := by
  unfold isQuote
  rw [Bool.or_eq_true, decide_eq_true_iff, decide_eq_true_iff]

theorem isQuote_eq_false_of_not_isReserved {c : Char} (h : isReserved c = false) :
    isQuote c = false := by
  unfold isQuote
  rw [Bool.or_eq_false_iff, decide_eq_false_iff_not, decide_eq_false_iff_not]
  constructor
  · intro hc
    rw [hc] at h
    exact absurd h (by decide)
  · intro hc
    rw [hc] at h
    exact absurd h (by decide)

theorem ne_backslash_of_isQuote {c : Char} (h : isQuote c) : c ≠ '\\' := by
  intro hc
  rw [hc] at h
  exact absurd h (by decide)

theorem reads_argument {s rest : List Char} {value : String} (h : Argument s value rest)
    (hrest : Ends rest) : Reads (argument s) value rest := by
  cases h with
  | @bare _ content _ h =>
    have hreads := reads_word .argument h hrest
    cases s with
    | nil => exact hreads
    | cons c s =>
      unfold argument
      dsimp only
      rw [if_neg]
      · exact hreads
      · simp [isQuote_eq_false_of_not_isReserved (head_of_word h)]
  | quoted hquote h =>
    have heq := unquote?_eq_of_quoted (ne_backslash_of_isQuote hquote) h
    refine ⟨Nat.lt_succ_of_lt (length_lt_of_unquote? heq), ?_⟩
    unfold argument
    dsimp only
    rw [if_pos hquote]
    split
    next hsome =>
      rw [heq] at hsome
      cases hsome
      rfl
    next hnone =>
      rw [heq] at hnone
      cases hnone

theorem argumentGroup_of_reads {s rest : List Char} {values : List String}
    (h : Reads (argumentsOfGroup s) values rest) : ArgumentGroup s values rest := by
  unfold argumentsOfGroup at h
  rw [reads_bind_iff] at h
  rcases h with ⟨first, hfirst, h⟩
  have hargument := argument_of_reads (reads_of_eq_ok hfirst)
  dsimp only at h
  split at h
  next tail hcomma =>
    rw [reads_bind_iff] at h
    rcases h with ⟨others, hothers, h⟩
    rw [reads_pure_iff] at h
    rcases h with ⟨rfl, rfl⟩
    have : tail.length < s.length := by
      have hs := length_skipBlanks_le s
      have hrest := length_skipBlanks_le first.rest
      have hlt := first.length_lt
      rw [hcomma, List.length_cons] at hrest
      omega
    have hgroup := argumentGroup_of_reads (reads_of_eq_ok hothers)
    exact .cons (blanks_skipBlanks s) hargument (blanks_of_skipBlanks_eq hcomma) hgroup
  next hclose =>
    rw [reads_pure_iff] at h
    rcases h with ⟨rfl, rfl⟩
    exact .one (blanks_skipBlanks s) hargument (blanks_of_skipBlanks_eq hclose)
  next => exact (not_reads_error h).elim
termination_by s.length

theorem head_of_argument {c : Char} {s rest : List Char} {value : String}
    (h : Argument (c :: s) value rest) : isReserved c = false ∨ isQuote c := by
  cases h with
  | bare h => exact .inl (head_of_word h)
  | quoted hquote _ => exact .inr hquote

theorem isBlank_eq_false_of_isQuote {c : Char} (h : isQuote c) : Text.isBlank c = false := by
  rcases isQuote_iff.mp h with rfl | rfl
  · decide
  · decide

theorem skipBlanks_eq_of_argument {s t rest : List Char} {value : String} (hblanks : Blanks s t)
    (h : Argument t value rest) : skipBlanks s = t := by
  cases t with
  | nil => cases h with | bare h => cases h
  | cons c t =>
    apply skipBlanks_eq_cons_of_blanks hblanks
    cases head_of_argument h with
    | inl hword =>
      apply isBlank_eq_false_of_not_isReserved
      exact hword
    | inr hquote =>
      apply isBlank_eq_false_of_isQuote
      exact hquote

theorem argument_skipBlanks {s t rest : List Char} {value : String} (hblanks : Blanks s t)
    (h : Argument t value rest) : Argument (skipBlanks s) value rest := by
  rw [skipBlanks_eq_of_argument hblanks h]
  exact h

theorem reads_argumentsOfGroup {s rest : List Char} {values : List String}
    (h : ArgumentGroup s values rest) : Reads (argumentsOfGroup s) values rest := by
  induction h with
  | one hblanks hargument hclose =>
    have hreads := reads_argument (argument_skipBlanks hblanks hargument)
      (ends_of_blanks hclose (ends_cons rfl _))
    rcases hreads with ⟨_, hreads⟩
    have hskip := skipBlanks_eq_cons_of_blanks hclose (by decide)
    unfold argumentsOfGroup
    rw [reads_bind_iff]
    refine ⟨_, hreads, ?_⟩
    dsimp only
    split
    next hcomma =>
      rw [hskip] at hcomma
      cases hcomma
    next hclose =>
      rw [hskip] at hclose
      cases hclose
      rw [reads_pure_iff]
      exact ⟨rfl, rfl⟩
    next hother => exact (hother _ hskip).elim
  | cons hblanks hargument hcomma _ ih =>
    have hreads := reads_argument (argument_skipBlanks hblanks hargument)
      (ends_of_blanks hcomma (ends_cons rfl _))
    rcases hreads with ⟨_, hreads⟩
    rcases ih with ⟨_, hgroup⟩
    have hskip := skipBlanks_eq_cons_of_blanks hcomma (by decide)
    unfold argumentsOfGroup
    rw [reads_bind_iff]
    refine ⟨_, hreads, ?_⟩
    dsimp only
    split
    next heq =>
      rw [hskip] at heq
      cases heq
      rw [reads_bind_iff]
      refine ⟨_, hgroup, ?_⟩
      rw [reads_pure_iff]
      exact ⟨rfl, rfl⟩
    next heq =>
      rw [hskip] at heq
      cases heq
    next hother _ => exact (hother _ hskip).elim

theorem argumentGroup_of_blanks {s t rest : List Char} {values : List String}
    (hblanks : Blanks s t) (h : ArgumentGroup t values rest) : ArgumentGroup s values rest := by
  cases h with
  | one hblanks' hargument hclose => exact .one (blanks_trans hblanks hblanks') hargument hclose
  | cons hblanks' hargument hcomma hgroup =>
    exact .cons (blanks_trans hblanks hblanks') hargument hcomma hgroup

theorem argumentGroup_skipBlanks_iff {s rest : List Char} {values : List String} :
    ArgumentGroup (skipBlanks s) values rest ↔ ArgumentGroup s values rest := by
  constructor
  · apply argumentGroup_of_blanks
    apply blanks_skipBlanks
  · intro h
    cases h with
    | one hblanks hargument hclose =>
      exact .one .nil (argument_skipBlanks hblanks hargument) hclose
    | cons hblanks hargument hcomma hgroup =>
      exact .cons .nil (argument_skipBlanks hblanks hargument) hcomma hgroup

theorem argument_skipBlanks_of_argumentGroup {s rest : List Char} {values : List String}
    (h : ArgumentGroup s values rest) : ∃ value tail, Argument (skipBlanks s) value tail := by
  cases h with
  | one hblanks hargument _ => exact ⟨_, _, argument_skipBlanks hblanks hargument⟩
  | cons hblanks hargument _ _ => exact ⟨_, _, argument_skipBlanks hblanks hargument⟩

theorem head?_ne_of_argument {c : Char} (hreserved : isReserved c) (hquote : isQuote c = false)
    {s rest : List Char} {value : String} (h : Argument s value rest) : s.head? ≠ some c := by
  intro hhead
  cases s with
  | nil => cases hhead
  | cons d s =>
    cases hhead
    cases head_of_argument h with
    | inl hword => simp [hword] at hreserved
    | inr hc => simp [hquote] at hc

theorem arguments_of_reads {s rest : List Char} {values : List String}
    (h : Reads (arguments s) values rest) : Arguments s values rest := by
  unfold arguments at h
  split at h
  next group =>
    dsimp only at h
    split at h
    next => exact (not_reads_error h).elim
    next =>
      rw [reads_bind_iff] at h
      rcases h with ⟨all, hall, h⟩
      rw [reads_pure_iff] at h
      rcases h with ⟨rfl, rfl⟩
      have hgroup := argumentGroup_of_reads (reads_of_eq_ok hall)
      apply Arguments.group
      rw [← argumentGroup_skipBlanks_iff]
      exact hgroup
  next =>
    rw [reads_bind_iff] at h
    rcases h with ⟨single, hsingle, h⟩
    rw [reads_pure_iff] at h
    rcases h with ⟨rfl, rfl⟩
    apply Arguments.single
    apply argument_of_reads
    apply reads_of_eq_ok hsingle

theorem reads_arguments {s rest : List Char} {values : List String}
    (h : Arguments s values rest) (hrest : Ends rest) : Reads (arguments s) values rest := by
  cases h with
  | single h =>
    have hparenthesis := head?_ne_of_argument (by decide : isReserved '(') (by decide) h
    have hreads := reads_argument h hrest
    unfold arguments
    split
    next => exact absurd rfl hparenthesis
    next =>
      rcases hreads with ⟨_, hreads⟩
      rw [reads_bind_iff]
      refine ⟨_, hreads, ?_⟩
      rw [reads_pure_iff]
      exact ⟨rfl, rfl⟩
  | group h =>
    have hargument := argument_skipBlanks_of_argumentGroup h
    rcases hargument with ⟨_, _, hargument⟩
    have hreads := reads_argumentsOfGroup (argumentGroup_skipBlanks_iff.mpr h)
    rcases hreads with ⟨_, hreads⟩
    have hclose := head?_ne_of_argument (by decide : isReserved ')') (by decide) hargument
    generalize ht : '(' :: _ = t
    unfold arguments
    split
    next =>
      cases ht
      dsimp only
      rw [if_neg hclose, reads_bind_iff]
      refine ⟨_, hreads, ?_⟩
      rw [reads_pure_iff]
      exact ⟨rfl, rfl⟩
    next hother => exact (hother _ ht.symm).elim

theorem ends_of_symbol {s rest : List Char} {value : String} (h : Symbol s value rest) :
    Ends s := by
  cases h with
  | equal =>
    apply ends_cons
    decide
  | notEqual =>
    apply ends_cons
    decide
  | named _ =>
    apply ends_cons
    decide

section Comparison

variable {s rest : List Char} {value : Comparison}

theorem comparison_of_reads (h : Reads (comparison s) value rest) :
    ∃ selector s₁ s₂, Word s selector s₁ ∧ Symbol s₁ value.symbol s₂ ∧
      Arguments s₂ value.arguments rest ∧ value.selector = String.ofList selector := by
  unfold comparison at h
  rw [reads_bind_iff] at h
  rcases h with ⟨selector, hselector, h⟩
  rw [reads_bind_iff] at h
  rcases h with ⟨symbol, hsymbol, h⟩
  rw [reads_bind_iff] at h
  rcases h with ⟨arguments, harguments, h⟩
  rw [reads_pure_iff] at h
  rcases h with ⟨rfl, rfl⟩
  have hword := word_of_reads (reads_of_eq_ok hselector)
  rcases hword with ⟨content, hcontent, heq⟩
  exact ⟨content, _, _, hcontent, symbol_of_reads (reads_of_eq_ok hsymbol),
    arguments_of_reads (reads_of_eq_ok harguments), heq⟩

theorem reads_comparison {selector s₁ s₂ : List Char} {symbol : String} {values : List String}
    (hselector : Word s selector s₁) (hsymbol : Symbol s₁ symbol s₂)
    (harguments : Arguments s₂ values rest) (hrest : Ends rest) :
    Reads (comparison s) ⟨String.ofList selector, symbol, values⟩ rest := by
  have hword := reads_word .selector hselector (ends_of_symbol hsymbol)
  rcases hword with ⟨_, hword⟩
  rcases reads_symbol hsymbol with ⟨_, hsymbol⟩
  rcases reads_arguments harguments hrest with ⟨_, harguments⟩
  unfold comparison
  rw [reads_bind_iff]
  refine ⟨_, hword, ?_⟩
  rw [reads_bind_iff]
  refine ⟨_, hsymbol, ?_⟩
  rw [reads_bind_iff]
  refine ⟨_, harguments, ?_⟩
  rw [reads_pure_iff]
  exact ⟨rfl, rfl⟩

end Comparison

end Criteria.Filter
