import Criteria.Proofs.Filter.Locality

/-!
This module contains the proof that the parser of filter expressions never stops inside a word: what it leaves of a
text either does not start like a word or comes right after a character that no word contains.
-/

namespace Criteria.Filter

open Grammar

section IsBoundary

variable {s rest : List Char}

/--
What it means that a rest of a text does not start inside a word.
-/
def IsBoundary (s rest : List Char) : Prop :=
  Ends rest ∨ ∃ front c, s = front ++ c :: rest ∧ isReserved c

theorem isBoundary_of_eq_append {front s' : List Char} (hs : s = front ++ s')
    (h : IsBoundary s' rest) : IsBoundary s rest := by
  cases h with
  | inl hends => exact .inl hends
  | inr h =>
    rcases h with ⟨front', c, rfl, hc⟩
    exact .inr ⟨front ++ front', c, by rw [hs, List.append_assoc], hc⟩

theorem isBoundary_cons {c : Char} (hc : isReserved c) (front rest : List Char) :
    IsBoundary (front ++ c :: rest) rest :=
  .inr ⟨front, c, rfl, hc⟩

theorem isBoundary_of_blanks {front s' : List Char} (hs : s = front ++ s') (h : IsBoundary s s')
    (hblanks : Blanks s' rest) : IsBoundary s rest := by
  induction hblanks generalizing front with
  | nil => exact h
  | @cons c s' rest hblank _ ih =>
    have hs' : s = front ++ [c] ++ s' := by rw [hs, List.append_assoc, List.singleton_append]
    exact ih hs' (.inr ⟨front, c, hs, isReserved_of_isBlank hblank⟩)

end IsBoundary

section Token

variable {s rest : List Char}

theorem ends_of_reads_word {complaint : Complaint} {value : String}
    (h : Reads (word complaint s) value rest) : Ends rest := by
  rcases h with ⟨_, h⟩
  unfold word at h
  dsimp only at h
  split at h
  next =>
    cases h
    intro c hc
    have hnot := List.head?_dropWhile_not (fun c => !isReserved c) s
    rw [Option.mem_def.mp hc] at hnot
    simpa using hnot
  next => cases h

theorem exists_of_quoted {quote : Char} {content : List Char} (h : Quoted quote s content rest) :
    ∃ front, s = front ++ quote :: rest := by
  induction h with
  | close => exact ⟨[], rfl⟩
  | @escaped c _ _ _ _ ih =>
    rcases ih with ⟨front, rfl⟩
    exact ⟨'\\' :: c :: front, rfl⟩
  | @plain c _ _ _ _ _ _ ih =>
    rcases ih with ⟨front, rfl⟩
    exact ⟨c :: front, rfl⟩

theorem isReserved_of_isQuote {c : Char} (h : isQuote c) : isReserved c := by
  rcases isQuote_iff.mp h with rfl | rfl
  · decide
  · decide

theorem isBoundary_of_reads_argument {value : String} (h : Reads (argument s) value rest) :
    IsBoundary s rest := by
  cases s with
  | nil =>
    rcases h with ⟨hlt, _⟩
    exact absurd hlt (Nat.not_lt_zero _)
  | cons c s =>
    unfold argument at h
    dsimp only at h
    split at h
    next hquote =>
      rcases h with ⟨_, h⟩
      split at h
      next hquoted =>
        cases h
        rcases exists_of_quoted (quoted_of_unquote?_eq hquoted) with ⟨front, rfl⟩
        exact isBoundary_cons (isReserved_of_isQuote hquote) (c :: front) _
      next => cases h
    next => exact .inl (ends_of_reads_word h)

theorem exists_of_argumentGroup {values : List String} (h : ArgumentGroup s values rest) :
    ∃ front, s = front ++ ')' :: rest := by
  induction h with
  | one hblanks hargument hclose =>
    rcases blanks_iff.mp hblanks with ⟨blanks, rfl, _⟩
    rcases holdsLocally_argument hargument with ⟨front, rfl, _⟩
    rcases blanks_iff.mp hclose with ⟨blanks', rfl, _⟩
    exact ⟨blanks ++ (front ++ blanks'), by simp⟩
  | cons hblanks hargument hcomma _ ih =>
    rcases blanks_iff.mp hblanks with ⟨blanks, rfl, _⟩
    rcases holdsLocally_argument hargument with ⟨front, rfl, _⟩
    rcases blanks_iff.mp hcomma with ⟨blanks', rfl, _⟩
    rcases ih with ⟨others, rfl⟩
    exact ⟨blanks ++ (front ++ (blanks' ++ ',' :: others)), by simp⟩

theorem isBoundary_of_reads_arguments {values : List String}
    (h : Reads (arguments s) values rest) : IsBoundary s rest := by
  have harguments := arguments_of_reads h
  unfold arguments at h
  split at h
  next group =>
    cases harguments with
    | single hargument =>
      exact absurd rfl (head?_ne_of_argument (by decide) (by decide) hargument)
    | group hgroup =>
      rcases exists_of_argumentGroup hgroup with ⟨front, rfl⟩
      exact isBoundary_cons (by decide) ('(' :: front) _
  next =>
    rw [reads_bind_iff] at h
    rcases h with ⟨single, hsingle, h⟩
    rw [reads_pure_iff] at h
    rcases h with ⟨rfl, rfl⟩
    exact isBoundary_of_reads_argument (reads_of_eq_ok hsingle)

theorem isBoundary_of_reads_comparison {value : Comparison}
    (h : Reads (comparison s) value rest) : IsBoundary s rest := by
  unfold comparison at h
  rw [reads_bind_iff] at h
  rcases h with ⟨selector, hselector, h⟩
  rw [reads_bind_iff] at h
  rcases h with ⟨symbol, hsymbol, h⟩
  rw [reads_bind_iff] at h
  rcases h with ⟨arguments, harguments, h⟩
  rw [reads_pure_iff] at h
  rcases h with ⟨_, rfl⟩
  rcases word_of_reads (reads_of_eq_ok hselector) with ⟨content, hword, _⟩
  apply isBoundary_of_eq_append (many_iff.mp hword).2.1
  apply isBoundary_of_eq_append (isSymbol_of_symbol (symbol_of_reads (reads_of_eq_ok hsymbol))).1
  exact isBoundary_of_reads_arguments (reads_of_eq_ok harguments)

end Token

section Chain

theorem exists_of_separator {connective : Connective} {s rest : List Char}
    (h : Separator connective s rest) : ∃ front, s = front ++ rest := by
  cases h with
  | char hblanks =>
    rcases blanks_iff.mp hblanks with ⟨blanks, rfl, _⟩
    exact ⟨blanks ++ [separatorChar connective], by simp⟩
  | @word blank _ _ word _ _ hblanks _ _ =>
    rcases blanks_iff.mp hblanks with ⟨blanks, rfl, _⟩
    exact ⟨blank :: (blanks ++ word), by simp⟩

theorem exists_of_chain {connective : Connective} {s rest : List Char} {value : Expression}
    (h : Chain connective s value rest) : ∃ front, s = front ++ rest := by
  rcases holdsLocally_chain h with ⟨front, hs, _⟩
  exact ⟨front, hs⟩

theorem exists_of_part {connective : Connective} {s rest : List Char} {value : Expression}
    (h : Part connective s value rest) : ∃ front, s = front ++ rest := by
  rcases holdsLocally_part h with ⟨front, hs, _⟩
  exact ⟨front, hs⟩

theorem isBoundary_of_reads_constraint {s rest : List Char} {value : Expression}
    (h : Reads (constraint s) value rest) : IsBoundary s rest := by
  unfold constraint at h
  dsimp only at h
  rcases blanks_iff.mp (blanks_skipBlanks s) with ⟨blanks, hs, _⟩
  split at h
  next inner hopen =>
    rw [reads_bind_iff] at h
    rcases h with ⟨inside, hinside, h⟩
    rcases exists_of_chain (chain_of_reads (reads_of_eq_ok hinside)) with ⟨front, hinner⟩
    split at h
    next tail hclose =>
      rw [reads_pure_iff] at h
      rcases h with ⟨_, rfl⟩
      rcases blanks_iff.mp (blanks_of_skipBlanks_eq hclose) with ⟨blanks', hrest, _⟩
      rw [hopen, hinner, hrest] at hs
      have hs' : s = (blanks ++ '(' :: (front ++ blanks')) ++ ')' :: tail := by
        rw [hs]
        simp
      exact .inr ⟨_, ')', hs', by decide⟩
    next => exact (not_reads_error h).elim
  next =>
    rw [reads_bind_iff] at h
    rcases h with ⟨single, hsingle, h⟩
    rw [reads_pure_iff] at h
    rcases h with ⟨_, rfl⟩
    exact isBoundary_of_eq_append hs (isBoundary_of_reads_comparison (reads_of_eq_ok hsingle))

-- The recursion is that of the parser.
mutual

theorem isBoundary_of_reads_chain {connective : Connective} {s rest : List Char}
    {value : Expression} (h : Reads (chain connective s) value rest) : IsBoundary s rest := by
  unfold chain at h
  rw [reads_bind_iff] at h
  rcases h with ⟨first, hfirst, h⟩
  dsimp only at h
  rw [reads_bind_iff] at h
  rcases h with ⟨others, hothers, h⟩
  rw [reads_pure_iff] at h
  rcases h with ⟨_, rfl⟩
  dsimp only
  have hlt := first.length_lt
  have hboundary := isBoundary_of_reads_part (reads_of_eq_ok hfirst)
  rcases exists_of_part (part_of_reads (reads_of_eq_ok hfirst)) with ⟨front, hs⟩
  cases isBoundary_of_furtherParts_eq_ok hothers with
  | inl hrest => rwa [hrest]
  | inr hothers => exact isBoundary_of_eq_append hs hothers
termination_by 6 * s.length + (2 * level connective + 1)

theorem isBoundary_of_reads_part {connective : Connective} {s rest : List Char}
    {value : Expression} (h : Reads (part connective s) value rest) : IsBoundary s rest := by
  unfold part at h
  cases connective with
  | or => exact isBoundary_of_reads_chain h
  | and => exact isBoundary_of_reads_constraint h
termination_by 6 * s.length + 2 * level connective
decreasing_by all_goals subst_vars; simp [level]

theorem isBoundary_of_furtherParts_eq_ok {connective : Connective} {s : List Char}
    {parts : Parts s} (h : furtherParts connective s = .ok parts) :
    parts.rest = s ∨ IsBoundary s parts.rest := by
  unfold furtherParts at h
  split at h
  next =>
    rw [Except.pure_eq_ok_iff] at h
    rw [← h]
    exact .inl rfl
  next tail hlt hseparator =>
    dsimp only at h
    rw [Except.bind_eq_ok_iff] at h
    rcases h with ⟨next, hnext, h⟩
    rw [Except.bind_eq_ok_iff] at h
    rcases h with ⟨others, hothers, h⟩
    rw [Except.pure_eq_ok_iff] at h
    rw [← h]
    have hlevel := level_le connective
    have hnextlt := next.length_lt
    have hboundary := isBoundary_of_reads_part (reads_of_eq_ok hnext)
    rcases exists_of_separator (separator_of_separator?_eq hseparator) with ⟨before, hs⟩
    rcases exists_of_part (part_of_reads (reads_of_eq_ok hnext)) with ⟨front, htail⟩
    refine .inr (isBoundary_of_eq_append hs ?_)
    cases isBoundary_of_furtherParts_eq_ok hothers with
    | inl hrest => rwa [hrest]
    | inr hothers => exact isBoundary_of_eq_append htail hothers
termination_by 6 * s.length

end

end Chain

end Criteria.Filter
