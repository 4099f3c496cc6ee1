import Criteria.Proofs.Filter.Soundness

/-!
This module contains the proof that the parser of filter expressions accepts everything that their grammar
derives. A part of a chain has to be read up to its end, which is what `Stops` is about.
-/

namespace Criteria.Filter

open Grammar

variable {connective : Connective} {s rest : List Char}

def Stops (n : Nat) (s : List Char) : Prop :=
  Ends s ∧ ∀ connective, level connective < n → separator? connective s = none

theorem stops_of_le {m n : Nat} (hle : m ≤ n) (h : Stops n s) : Stops m s := by
  refine ⟨h.1, ?_⟩
  intro connective hlevel
  apply h.2
  omega

theorem stops_of_blanks_nil (n : Nat) (h : Blanks s []) : Stops n s := by
  refine ⟨ends_of_blanks h ends_nil, ?_⟩
  intro connective _
  apply separator?_eq_none
  rw [blanks_nil_iff.mp h]
  intro c hc
  cases hc

theorem not_startsSeparator_parenthesis : ¬startsSeparator connective ')' := by
  unfold startsSeparator
  cases connective <;> decide

theorem stops_of_blanks_parenthesis (n : Nat) (h : Blanks s (')' :: rest)) : Stops n s := by
  refine ⟨ends_of_blanks h (ends_cons (by decide) rest), ?_⟩
  intro connective _
  apply separator?_eq_none
  rw [skipBlanks_eq_cons_of_blanks h (by decide)]
  intro c hc
  cases hc
  apply not_startsSeparator_parenthesis

theorem stops_of_separator (h : Separator connective s rest) : Stops (level connective) s := by
  refine ⟨ends_of_separator h, ?_⟩
  intro connective' hlevel
  apply separator?_eq_none
  have hskip := skipBlanks_of_separator h
  rcases hskip with ⟨c, tail, hskip, hstarts⟩
  rw [hskip]
  intro d hd hstarts'
  cases hd
  rw [eq_of_startsSeparator hstarts hstarts'] at hlevel
  exact absurd hlevel (Nat.lt_irrefl _)

theorem reads_chain_of_parts {s₁ : List Char} {first : Expression} {others : Parts s₁}
    (hfirst : Reads (part connective s) first s₁)
    (hothers : furtherParts connective s₁ = .ok others) :
    Reads (chain connective s) (ofChain connective (first :: others.value)) others.rest := by
  rcases hfirst with ⟨_, hfirst⟩
  unfold chain
  rw [reads_bind_iff]
  refine ⟨_, hfirst, ?_⟩
  dsimp only
  rw [reads_bind_iff]
  refine ⟨_, hothers, ?_⟩
  rw [reads_pure_iff]
  exact ⟨rfl, rfl⟩

theorem furtherParts_of_separator?_eq_none (h : separator? connective s = none) :
    furtherParts connective s = .ok ⟨[], s, Nat.le_refl _⟩ := by
  unfold furtherParts
  split
  next => rfl
  next hsome =>
    rw [h] at hsome
    cases hsome

theorem furtherParts_of_separator {s₁ s₂ : List Char} {first : Expression} {others : Parts s₂}
    (hseparator : Separator connective s s₁) (hfirst : Reads (part connective s₁) first s₂)
    (hothers : furtherParts connective s₂ = .ok others) :
    ∃ hle, furtherParts connective s = .ok ⟨first :: others.value, others.rest, hle⟩ := by
  have hsome := separator?_eq_of_separator hseparator
  rcases hsome with ⟨⟨_, hlt⟩, hsome, rfl⟩
  rcases hfirst with ⟨hlt', hfirst⟩
  have hle := others.length_le
  have hle' : others.rest.length ≤ s.length := by
    dsimp only at hlt'
    omega
  refine ⟨hle', ?_⟩
  unfold furtherParts
  split
  next hnone =>
    rw [hsome] at hnone
    cases hnone
  next heq =>
    rw [hsome] at heq
    cases heq
    dsimp only
    rw [Except.bind_eq_ok_iff]
    refine ⟨_, hfirst, ?_⟩
    rw [Except.bind_eq_ok_iff]
    exact ⟨_, hothers, rfl⟩

theorem skipBlanks_eq_of_word {t content : List Char} (hblanks : Blanks s t)
    (h : Word t content rest) : skipBlanks s = t := by
  cases t with
  | nil => cases h
  | cons c t =>
    apply skipBlanks_eq_cons_of_blanks hblanks
    apply isBlank_eq_false_of_not_isReserved
    apply head_of_word h

theorem reads_constraint_of_comparison {s₁ s₂ s₃ selector : List Char} {symbol : String}
    {arguments : List String} (hblanks : Blanks s s₁) (hselector : Word s₁ selector s₂)
    (hsymbol : Symbol s₂ symbol s₃) (harguments : Arguments s₃ arguments rest)
    (hrest : Ends rest) :
    Reads (constraint s) (.atom ⟨String.ofList selector, symbol, arguments⟩) rest := by
  have hskip := skipBlanks_eq_of_word hblanks hselector
  subst hskip
  have hreads := reads_comparison hselector hsymbol harguments hrest
  rcases hreads with ⟨_, hreads⟩
  unfold constraint
  dsimp only
  split
  next heq =>
    rw [heq] at hselector
    exact absurd (head_of_word hselector) (by decide)
  next =>
    rw [reads_bind_iff]
    refine ⟨_, hreads, ?_⟩
    rw [reads_pure_iff]
    exact ⟨rfl, rfl⟩

theorem reads_constraint_of_parentheses {s₁ s₂ : List Char} {value : Expression}
    (hopen : Blanks s ('(' :: s₁)) (hinside : Reads (chain .or s₁) value s₂)
    (hclose : Blanks s₂ (')' :: rest)) : Reads (constraint s) value rest := by
  have hskip := skipBlanks_eq_cons_of_blanks hopen (by decide)
  have hskip' := skipBlanks_eq_cons_of_blanks hclose (by decide)
  rcases hinside with ⟨_, hinside⟩
  unfold constraint
  dsimp only
  split
  next heq =>
    rw [hskip] at heq
    cases heq
    rw [reads_bind_iff]
    refine ⟨_, hinside, ?_⟩
    split
    next heq =>
      rw [hskip'] at heq
      cases heq
      rw [reads_pure_iff]
      exact ⟨rfl, rfl⟩
    next hother => exact (hother _ hskip').elim
  next hother => exact (hother _ hskip).elim

-- What comes after a part, be it a separator, a closing parenthesis or the end of the text, stops the part. The
-- recursion is on the derivations.
mutual

theorem reads_chain {connective : Connective} {s rest : List Char} {value : Expression}
    (h : Chain connective s value rest) (hstops : Stops (level connective + 1) rest) :
    Reads (chain connective s) value rest := by
  match h with
  | .single hpart =>
    have hreads := reads_part hpart (stops_of_le (Nat.le_succ _) hstops)
    have hnone := furtherParts_of_separator?_eq_none (hstops.2 connective (Nat.lt_succ_self _))
    exact reads_chain_of_parts hreads hnone
  | .group hparts =>
    have hreads := reads_parts hparts hstops
    rcases hreads with ⟨first, others, s₁, heq, hfirst, hle, hothers⟩
    cases heq
    exact reads_chain_of_parts hfirst hothers

theorem reads_parts {connective : Connective} {s rest : List Char} {parts : List Expression}
    (h : Grammar.Parts connective s parts rest) (hstops : Stops (level connective + 1) rest) :
    ∃ first others s₁, parts = first :: others ∧ Reads (part connective s) first s₁ ∧
      ∃ hle, furtherParts connective s₁ = .ok ⟨others, rest, hle⟩ := by
  match h with
  | .one hpart =>
    have hreads := reads_part hpart (stops_of_le (Nat.le_succ _) hstops)
    have hnone := furtherParts_of_separator?_eq_none (hstops.2 connective (Nat.lt_succ_self _))
    exact ⟨_, _, _, rfl, hreads, _, hnone⟩
  | .cons hpart hseparator hparts =>
    have hreads := reads_part hpart (stops_of_separator hseparator)
    have hfurther := reads_parts hparts hstops
    rcases hfurther with ⟨second, others, s₂, rfl, hsecond, hle, hothers⟩
    exact ⟨_, _, _, rfl, hreads, furtherParts_of_separator hseparator hsecond hothers⟩

theorem reads_part {connective : Connective} {s rest : List Char} {value : Expression}
    (h : Part connective s value rest) (hstops : Stops (level connective) rest) :
    Reads (part connective s) value rest := by
  match h with
  | .conjunction hchain =>
    unfold part
    exact reads_chain hchain hstops
  | .comparison hblanks hselector hsymbol harguments =>
    unfold part
    exact reads_constraint_of_comparison hblanks hselector hsymbol harguments hstops.1
  | .parentheses hopen hchain hclose =>
    unfold part
    have hinside := reads_chain hchain (stops_of_blanks_parenthesis _ hclose)
    exact reads_constraint_of_parentheses hopen hinside hclose

end

mutual

theorem chain_of_skipBlanks_eq {connective : Connective} {s t rest : List Char}
    {value : Expression} (hskip : skipBlanks s = skipBlanks t)
    (h : Chain connective s value rest) : Chain connective t value rest := by
  match h with
  | .single hpart => exact .single (part_of_skipBlanks_eq hskip hpart)
  | .group (.cons hpart hseparator hparts) =>
    exact .group (.cons (part_of_skipBlanks_eq hskip hpart) hseparator hparts)

theorem part_of_skipBlanks_eq {connective : Connective} {s t rest : List Char}
    {value : Expression} (hskip : skipBlanks s = skipBlanks t)
    (h : Part connective s value rest) : Part connective t value rest := by
  match h with
  | .conjunction hchain => exact .conjunction (chain_of_skipBlanks_eq hskip hchain)
  | .comparison hblanks hselector hsymbol harguments =>
    have hs := skipBlanks_eq_of_word hblanks hselector
    rw [hskip] at hs
    exact .comparison (blanks_of_skipBlanks_eq hs) hselector hsymbol harguments
  | .parentheses hopen hchain hclose =>
    have hs := skipBlanks_eq_cons_of_blanks hopen (by decide)
    rw [hskip] at hs
    exact .parentheses (blanks_of_skipBlanks_eq hs) hchain hclose

end

theorem expression_eq_ok_of_derives {text : String} {value : Expression}
    (h : Derives text value) : expression text.toList = .ok value := by
  rcases h with ⟨start, rest, hstart, hchain, hrest⟩
  have hskip : skipBlanks start = skipBlanks (skipBlanks text.toList) := by
    rw [← skipBlanks_eq_of_blanks hstart]
    exact skipBlanks_eq_of_blanks (blanks_skipBlanks _)
  have hreads := reads_chain (chain_of_skipBlanks_eq hskip hchain) (stops_of_blanks_nil _ hrest)
  rcases hreads with ⟨hlt, hreads⟩
  have hne : ¬(skipBlanks text.toList).isEmpty := by
    rw [List.isEmpty_iff]
    intro hnil
    rw [hnil] at hlt
    exact absurd hlt (Nat.not_lt_zero _)
  unfold expression
  dsimp only
  rw [if_neg hne, Except.bind_eq_ok_iff]
  refine ⟨_, hreads, ?_⟩
  rw [blanks_nil_iff.mp hrest]
  rfl

theorem parse_eq_ok_of_derives {text : String} {value : Expression} (h : Derives text value) :
    parse text = .ok value := by
  unfold parse
  rw [Except.mapError_eq_ok_iff]
  exact expression_eq_ok_of_derives h

theorem eq_of_derives {text : String} {value value' : Expression} (h : Derives text value)
    (h' : Derives text value') : value = value' := by
  have hread := expression_eq_ok_of_derives h
  rw [expression_eq_ok_of_derives h'] at hread
  cases hread
  rfl

end Criteria.Filter
