import Criteria.Proofs.Filter.Boundary
import Criteria.Proofs.Filter.Completeness

/-!
This module contains the proof that the parser of filter expressions complains no later than it has to: whatever stands
in a text before the place of a complaint can be continued to an expression. The continuation supplies what the parser
was looking for and closes the parentheses that are open.
-/

namespace Criteria.Filter

open Grammar

section IsViable

variable {α β : Type} {relation : List Char → α → List Char → Prop}
  {relation' : List Char → β → List Char → Prop} {s s' rest : List Char}

/--
What it means that what stands in a text before a rest of it can be continued to something that the grammar has. The
continuation goes without quotes, and the rest does not start inside a word.
-/
def IsViable (relation : List Char → α → List Char → Prop) (s rest : List Char) : Prop :=
  IsBoundary s rest ∧ ∃ front missing value, s = front ++ rest ∧ (∀ c ∈ missing, isQuote c = false) ∧
    ∀ tail, relation (front ++ (missing ++ tail)) value tail

theorem isViable_of_eq_append {front missing : List Char} {value : α} (hs : s = front ++ rest)
    (hboundary : IsBoundary s rest) (hmissing : ∀ c ∈ missing, isQuote c = false)
    (hrelation : ∀ tail, relation (front ++ (missing ++ tail)) value tail) :
    IsViable relation s rest :=
  ⟨hboundary, front, missing, value, hs, hmissing, hrelation⟩

theorem isViable_of_ends {missing : List Char} {value : α} (hends : Ends s)
    (hmissing : ∀ c ∈ missing, isQuote c = false)
    (hrelation : ∀ tail, relation (missing ++ tail) value tail) : IsViable relation s s :=
  isViable_of_eq_append (List.nil_append s).symm (.inl hends) hmissing hrelation

theorem IsViable.extend {before after : List Char} (f : α → β) (hs : s' = before ++ s)
    (hafter : ∀ c ∈ after, isQuote c = false)
    (himp : ∀ x value tail, relation x value (after ++ tail) → relation' (before ++ x) (f value) tail)
    (h : IsViable relation s rest) : IsViable relation' s' rest := by
  rcases h with ⟨hboundary, front, missing, value, hfront, hmissing, hrelation⟩
  refine ⟨isBoundary_of_eq_append hs hboundary, before ++ front, missing ++ after, f value, ?_, ?_, ?_⟩
  · rw [hs, hfront, List.append_assoc]
  · rw [List.forall_mem_append]
    exact ⟨hmissing, hafter⟩
  · intro tail
    rw [List.append_assoc, List.append_assoc]
    exact himp _ _ _ (hrelation (after ++ tail))

theorem IsViable.imp (f : α → β)
    (himp : ∀ x value tail, relation x value tail → relation' x (f value) tail)
    (h : IsViable relation s rest) : IsViable relation' s rest :=
  h.extend f (List.nil_append s).symm (List.forall_mem_nil _) himp

theorem isViable_skipBlanks {before missing : List Char} {value : α} (value' : β)
    (hs : s' = before ++ s) (hboundary : IsBoundary s rest)
    (hmissing : ∀ c ∈ missing, isQuote c = false)
    (h : HoldsLocally (fun s rest => relation s value rest) s rest)
    (himp : ∀ x y tail, Blanks y (missing ++ tail) → relation x value y →
      relation' (before ++ x) value' tail) :
    IsViable relation' s' (skipBlanks rest) := by
  rcases h with ⟨front, hfront, _, hlocal⟩
  rcases blanks_iff.mp (blanks_skipBlanks rest) with ⟨blanks, hrest, hblanks⟩
  have hrest' : s' = (before ++ front) ++ rest := by rw [hs, hfront, List.append_assoc]
  have htext : s' = (before ++ (front ++ blanks)) ++ skipBlanks rest := by
    rw [hrest', List.append_assoc, List.append_assoc, List.append_assoc, ← hrest]
  have hboundary' := isBoundary_of_eq_append hs hboundary
  have hskip := isBoundary_of_blanks hrest' hboundary' (blanks_skipBlanks rest)
  apply isViable_of_eq_append htext hskip hmissing
  intro tail
  rw [List.append_assoc, List.append_assoc]
  exact himp _ _ _ (blanks_append hblanks _) (hlocal _)

end IsViable

section Token

variable {s : List Char} {failure : Failure}

theorem word_eq_error {complaint : Complaint} (h : word complaint s = .error failure) :
    failure.rest = s ∧ Ends s := by
  unfold word at h
  dsimp only at h
  split at h
  next => cases h
  next hnil =>
    cases h
    refine ⟨rfl, ?_⟩
    cases s with
    | nil => exact ends_nil
    | cons c s =>
      apply ends_cons
      by_contra hc
      rw [List.takeWhile_cons_of_pos (by simpa using hc)] at hnil
      cases hnil

theorem symbol_eq_error (h : symbol s = .error failure) : failure.rest = s := by
  unfold symbol at h
  split at h
  next => cases h
  next => cases h
  next =>
    split at h
    next => cases h
    next =>
      cases h
      rfl
  next =>
    cases h
    rfl

theorem argument_eq_error (h : argument s = .error failure) : failure.rest = s ∧ Ends s := by
  cases s with
  | nil => exact word_eq_error h
  | cons c s =>
    unfold argument at h
    dsimp only at h
    split at h
    next hquote =>
      split at h
      next => cases h
      next =>
        cases h
        exact ⟨rfl, ends_cons (isReserved_of_isQuote hquote) s⟩
    next => exact word_eq_error h

end Token

section Comparison

variable {s : List Char} {failure : Failure}

theorem isViable_argument (h : argument s = .error failure) : IsViable Argument s failure.rest := by
  rcases argument_eq_error h with ⟨hrest, hends⟩
  have hmissing : ∀ c ∈ ['a'], isQuote c = false := by simp [isQuote]
  rw [hrest]
  apply isViable_of_ends hends hmissing
  intro tail
  exact .bare (.one rfl)

theorem isViable_argumentsOfGroup {s : List Char} {failure : Failure}
    (h : argumentsOfGroup s = .error failure) : IsViable ArgumentGroup s failure.rest := by
  unfold argumentsOfGroup at h
  rcases blanks_iff.mp (blanks_skipBlanks s) with ⟨blanks, hs, hblanks⟩
  have hclose : ∀ c ∈ [')'], isQuote c = false := by simp [isQuote]
  rw [Except.bind_eq_error_iff] at h
  cases h with
  | inl hargument =>
    refine (isViable_argument hargument).extend (fun value => [value]) hs hclose ?_
    intro x value tail hx
    exact .one (blanks_append hblanks x) hx .nil
  | inr h =>
    rcases h with ⟨first, hfirst, h⟩
    have hread := reads_of_eq_ok hfirst
    have hlocal := holdsLocally_argument (argument_of_reads hread)
    dsimp only at h
    split at h
    next others hcomma =>
      have hothers := Except.eq_error_of_bind_eq_error h fun _ => ⟨_, rfl⟩
      rcases hlocal with ⟨front, hfront, _, hargument⟩
      rcases blanks_iff.mp (blanks_of_skipBlanks_eq hcomma) with ⟨blanks', hrest, hblanks'⟩
      have hs' : s = (blanks ++ (front ++ (blanks' ++ [',']))) ++ others := by
        rw [hs, hfront, hrest]
        simp
      have hlt : others.length < s.length := by
        simp only [hs', List.length_append, List.length_cons]
        omega
      refine (isViable_argumentsOfGroup hothers).extend (first.value :: ·) hs' (List.forall_mem_nil _) ?_
      intro x values tail hx
      simp only [List.append_assoc]
      exact .cons (blanks_append hblanks _) (hargument _) (blanks_append hblanks' _) hx
    next => cases h
    next =>
      cases h
      refine isViable_skipBlanks [first.value] hs (isBoundary_of_reads_argument hread) hclose hlocal ?_
      intro x y tail hy hx
      exact .one (blanks_append hblanks x) hx hy
termination_by s.length

theorem isViable_arguments (h : arguments s = .error failure) :
    IsViable Arguments s failure.rest := by
  unfold arguments at h
  split at h
  next group =>
    rcases blanks_iff.mp (blanks_skipBlanks group) with ⟨blanks, hgroup, hblanks⟩
    have hs : '(' :: group = ('(' :: blanks) ++ skipBlanks group := by
      rw [List.cons_append, ← hgroup]
    have hinside : IsViable ArgumentGroup (skipBlanks group) failure.rest := by
      dsimp only at h
      split at h
      next hclose =>
        cases h
        have hends : Ends (skipBlanks group) := by
          intro c hc
          rw [hclose] at hc
          cases hc
          decide
        have hmissing : ∀ c ∈ ['a', ')'], isQuote c = false := by simp [isQuote]
        apply isViable_of_ends hends hmissing
        intro tail
        exact .one .nil (.bare (.one rfl)) .nil
      next => exact isViable_argumentsOfGroup (Except.eq_error_of_bind_eq_error h fun _ => ⟨_, rfl⟩)
    refine hinside.extend id hs (List.forall_mem_nil _) ?_
    intro x values tail hx
    exact .group (argumentGroup_of_blanks (blanks_append hblanks x) hx)
  next =>
    have hsingle := Except.eq_error_of_bind_eq_error h fun _ => ⟨_, rfl⟩
    refine (isViable_argument hsingle).imp (fun value => [value]) ?_
    intro x value tail hx
    exact .single hx

theorem isViable_comparison (h : comparison s = .error failure) :
    IsViable (Part .and) s failure.rest := by
  unfold comparison at h
  rw [Except.bind_eq_error_iff] at h
  cases h with
  | inl hselector =>
    rcases word_eq_error hselector with ⟨hrest, hends⟩
    have hmissing : ∀ c ∈ ['a', '=', '=', 'a'], isQuote c = false := by simp [isQuote]
    rw [hrest]
    apply isViable_of_ends hends hmissing
    intro tail
    exact .comparison .nil (.one rfl) .equal (.single (.bare (.one rfl)))
  | inr h =>
    rcases h with ⟨selector, hselector, h⟩
    have hread := reads_of_eq_ok hselector
    rcases word_of_reads hread with ⟨content, hword, _⟩
    rcases holdsLocally_word hword with ⟨front, hs, _, hlocal⟩
    rw [Except.bind_eq_error_iff] at h
    cases h with
    | inl hsymbol =>
      have hmissing : ∀ c ∈ ['=', '=', 'a'], isQuote c = false := by simp [isQuote]
      have hboundary : IsBoundary s selector.rest := .inl (ends_of_reads_word hread)
      rw [symbol_eq_error hsymbol]
      apply isViable_of_eq_append hs hboundary hmissing
      intro tail
      exact .comparison .nil (hlocal _) .equal (.single (.bare (.one rfl)))
    | inr h =>
      rcases h with ⟨symbol, hsymbol, h⟩
      rcases isSymbol_of_symbol (symbol_of_reads (reads_of_eq_ok hsymbol)) with ⟨hrest, hvalid⟩
      have harguments := Except.eq_error_of_bind_eq_error h fun _ => ⟨_, rfl⟩
      have hs' : s = (front ++ symbol.value.toList) ++ symbol.rest := by
        rw [List.append_assoc, ← hrest, ← hs]
      refine (isViable_arguments harguments).extend
        (fun values => .atom ⟨String.ofList content, symbol.value, values⟩) hs'
        (List.forall_mem_nil _) ?_
      intro x values tail hx
      rw [List.append_assoc]
      exact .comparison .nil (hlocal _) (symbol_append hvalid x) hx

end Comparison

section Chain

theorem part_of_blanks {connective : Connective} {s t rest : List Char} {value : Expression}
    (hblanks : Blanks s t) (h : Part connective t value rest) : Part connective s value rest :=
  part_of_skipBlanks_eq (skipBlanks_eq_of_blanks hblanks).symm h

theorem furtherParts_of_separator_of_part {connective : Connective} {s t u rest : List Char}
    {value : Expression} {values : List Expression} (hseparator : Separator connective s t)
    (hpart : Part connective t value u) (hfurther : FurtherParts connective u values rest) :
    FurtherParts connective s (value :: values) rest :=
  .inr ⟨t, hseparator, parts_cons_iff.mpr ⟨u, hpart, hfurther⟩⟩

theorem exists_of_isViable_part {connective : Connective} {next : Char} {s rest : List Char}
    (hnext : Text.isBlank next ∨ next = '(') (h : IsViable (Part connective) (next :: s) rest) :
    ∃ front missing value c text, next :: s = front ++ rest ∧
      (∀ c ∈ missing, isQuote c = false) ∧ front ++ missing = c :: text ∧
      (Text.isBlank c ∨ c = '(') ∧ ∀ tail, Part connective (front ++ (missing ++ tail)) value tail := by
  rcases h with ⟨_, front, missing, value, hfront, hmissing, hpart⟩
  cases front with
  | nil =>
    refine ⟨[], ' ' :: missing, value, ' ', missing, hfront, ?_, rfl, .inl (by decide), ?_⟩
    · rw [List.forall_mem_cons]
      exact ⟨by decide, hmissing⟩
    · intro tail
      exact part_of_blanks (.cons (by decide : Text.isBlank ' ') .nil) (hpart tail)
  | cons c front =>
    have hc : next = c := by
      rw [List.cons_append] at hfront
      exact (List.cons.inj hfront).1
    rw [hc] at hnext
    exact ⟨c :: front, missing, value, c, front ++ missing, hfront, hmissing, rfl, hnext, hpart⟩

theorem isViable_of_separator {connective : Connective} {s s' rest : List Char}
    (hseparator : Separator connective s s') (h : IsViable (Part connective) s' rest) :
    IsViable (FurtherParts connective) s rest := by
  cases hseparator with
  | char hblanks =>
    rcases blanks_iff.mp hblanks with ⟨blanks, hs, hall⟩
    have hs' : s = (blanks ++ [separatorChar connective]) ++ s' := by simp [hs]
    refine h.extend (fun value => [value]) hs' (List.forall_mem_nil _) ?_
    intro x value tail hx
    rw [List.append_assoc]
    exact furtherParts_of_separator_of_part (.char (blanks_append hall _)) hx (.inl ⟨rfl, rfl⟩)
  | @word blank next _ word s' hblank hblanks hword hnext =>
    rcases blanks_iff.mp hblanks with ⟨blanks, rfl, hall⟩
    rcases exists_of_isViable_part hnext h with
      ⟨front, missing, value, c, text, hfront, hmissing, htext, hc, hpart⟩
    have hs : blank :: (blanks ++ (word ++ next :: s')) = (blank :: (blanks ++ word)) ++ next :: s' := by
      simp
    have hs' : blank :: (blanks ++ (word ++ next :: s')) =
        (blank :: (blanks ++ word) ++ front) ++ rest := by rw [hs, hfront, List.append_assoc]
    apply isViable_of_eq_append hs' (isBoundary_of_eq_append hs h.1) hmissing
    intro tail
    have hstart : front ++ (missing ++ tail) = c :: (text ++ tail) := by
      rw [← List.append_assoc, htext, List.cons_append]
    have hjoins : Separator connective (blank :: (blanks ++ (word ++ c :: (text ++ tail))))
        (c :: (text ++ tail)) := .word hblank (blanks_append hall _) hword hc
    rw [← hstart] at hjoins
    have hparts := furtherParts_of_separator_of_part hjoins (hpart tail) (.inl ⟨rfl, rfl⟩)
    simpa using hparts

theorem isViable_of_separator_of_part {connective : Connective} {s s₁ s₂ rest : List Char}
    {value : Expression} (hseparator : Separator connective s s₁)
    (hpart : Part connective s₁ value s₂) (h : IsViable (FurtherParts connective) s₂ rest) :
    IsViable (FurtherParts connective) s rest := by
  rcases holdsLocally_part hpart with ⟨front, rfl, hfirm, hlocal⟩
  cases front with
  | nil => exact absurd rfl (ne_nil_of_endsFirmly hfirm)
  | cons c front =>
    rcases separator_append_of_separator hseparator with ⟨separator, rfl, hjoins⟩
    have hs : separator ++ c :: (front ++ s₂) = (separator ++ c :: front) ++ s₂ := by simp
    refine h.extend (value :: ·) hs (List.forall_mem_nil _) ?_
    intro x values tail hx
    rw [List.append_assoc]
    exact furtherParts_of_separator_of_part (hjoins _) (hlocal _) hx

theorem isViable_of_part {connective : Connective} {s s' rest : List Char} {value : Expression}
    (hpart : Part connective s value s') (h : IsViable (FurtherParts connective) s' rest) :
    IsViable (Chain connective) s rest := by
  rcases holdsLocally_part hpart with ⟨front, rfl, _, hlocal⟩
  refine h.extend (fun values => ofChain connective (value :: values)) rfl (List.forall_mem_nil _) ?_
  intro x values tail hx
  apply chain_of_parts
  rw [parts_cons_iff]
  exact ⟨x, hlocal x, hx⟩

-- The recursion is that of the parser.
mutual

theorem isViable_chain {connective : Connective} {s : List Char} {failure : Failure}
    (h : chain connective s = .error failure) : IsViable (Chain connective) s failure.rest := by
  unfold chain at h
  rw [Except.bind_eq_error_iff] at h
  cases h with
  | inl hfirst => exact (isViable_part hfirst).imp id fun _ _ _ => .single
  | inr h =>
    rcases h with ⟨first, hfirst, h⟩
    have hlt := first.length_lt
    have hothers := Except.eq_error_of_bind_eq_error h fun _ => ⟨_, rfl⟩
    exact isViable_of_part (part_of_reads (reads_of_eq_ok hfirst)) (isViable_furtherParts hothers)
termination_by 6 * s.length + (2 * level connective + 1)

theorem isViable_part {connective : Connective} {s : List Char} {failure : Failure}
    (h : part connective s = .error failure) : IsViable (Part connective) s failure.rest := by
  unfold part at h
  cases connective with
  | or => exact (isViable_chain h).imp id fun _ _ _ => .conjunction
  | and => exact isViable_constraint h
termination_by 6 * s.length + 2 * level connective
decreasing_by all_goals subst_vars; simp [level]

theorem isViable_furtherParts {connective : Connective} {s : List Char} {failure : Failure}
    (h : furtherParts connective s = .error failure) :
    IsViable (FurtherParts connective) s failure.rest := by
  unfold furtherParts at h
  split at h
  next => cases h
  next tail hlt hseparator =>
    have hjoins := separator_of_separator?_eq hseparator
    dsimp only at h
    rw [Except.bind_eq_error_iff] at h
    have hlevel := level_le connective
    cases h with
    | inl hnext => exact isViable_of_separator hjoins (isViable_part hnext)
    | inr h =>
      rcases h with ⟨next, hnext, h⟩
      have hnextlt := next.length_lt
      have hothers := Except.eq_error_of_bind_eq_error h fun _ => ⟨_, rfl⟩
      have hpart := part_of_reads (reads_of_eq_ok hnext)
      exact isViable_of_separator_of_part hjoins hpart (isViable_furtherParts hothers)
termination_by 6 * s.length

theorem isViable_constraint {s : List Char} {failure : Failure}
    (h : constraint s = .error failure) : IsViable (Part .and) s failure.rest := by
  unfold constraint at h
  dsimp only at h
  rcases blanks_iff.mp (blanks_skipBlanks s) with ⟨blanks, hs, hblanks⟩
  have hclose : ∀ c ∈ [')'], isQuote c = false := by simp [isQuote]
  split at h
  next inner hopen =>
    have hlt : inner.length < s.length := by
      have hle := length_skipBlanks_le s
      rw [hopen, List.length_cons] at hle
      omega
    have hs' : s = (blanks ++ ['(']) ++ inner := by
      rw [List.append_assoc, List.singleton_append, ← hopen, ← hs]
    rw [Except.bind_eq_error_iff] at h
    cases h with
    | inl hinside =>
      refine (isViable_chain hinside).extend id hs' hclose ?_
      intro x value tail hx
      rw [List.append_assoc]
      exact .parentheses (blanks_append hblanks _) hx .nil
    | inr h =>
      rcases h with ⟨inside, hinside, h⟩
      have hread := reads_of_eq_ok hinside
      split at h
      next => cases h
      next =>
        cases h
        have hlocal := holdsLocally_chain (chain_of_reads hread)
        refine isViable_skipBlanks inside.value hs' (isBoundary_of_reads_chain hread) hclose hlocal ?_
        intro x y tail hy hx
        rw [List.append_assoc]
        exact .parentheses (blanks_append hblanks _) hx hy
  next =>
    have hsingle := Except.eq_error_of_bind_eq_error h fun _ => ⟨_, rfl⟩
    refine (isViable_comparison hsingle).extend id hs (List.forall_mem_nil _) ?_
    intro x value tail hx
    exact part_of_blanks (blanks_append hblanks x) hx
termination_by 6 * s.length
decreasing_by simp only [level]; omega

end

end Chain

section Expression

variable {s : List Char} {failure : Failure}

def Expressed (s : List Char) (value : Expression) (rest : List Char) : Prop :=
  ∃ start middle, Blanks s start ∧ Chain .or start value middle ∧ Blanks middle rest

theorem isViable_of_chain_eq_error (hstart : (skipBlanks s).isEmpty ∧ failure.rest = skipBlanks s ∨
      chain .or (skipBlanks s) = .error failure) : IsViable Expressed s failure.rest := by
  rcases blanks_iff.mp (blanks_skipBlanks s) with ⟨blanks, hs, hblanks⟩
  have hchain : IsViable (Chain .or) (skipBlanks s) failure.rest := by
    cases hstart with
    | inl hempty =>
      have hmissing : ∀ c ∈ ['a', '=', '=', 'a'], isQuote c = false := by simp [isQuote]
      rw [hempty.2, List.isEmpty_iff.mp hempty.1]
      apply isViable_of_ends ends_nil hmissing
      intro tail
      exact .single (.conjunction (.single
        (.comparison .nil (.one rfl) .equal (.single (.bare (.one rfl))))))
    | inr hchain => exact isViable_chain hchain
  refine hchain.extend id hs (List.forall_mem_nil _) ?_
  intro x value tail hx
  exact ⟨x, tail, blanks_append hblanks x, hx, .nil⟩

theorem isViable_expression (h : expression s = .error failure) :
    IsViable Expressed s failure.rest := by
  unfold expression at h
  dsimp only at h
  split at h
  next hempty =>
    cases h
    exact isViable_of_chain_eq_error (.inl ⟨hempty, rfl⟩)
  next =>
    rw [Except.bind_eq_error_iff] at h
    cases h with
    | inl hchain => exact isViable_of_chain_eq_error (.inr hchain)
    | inr h =>
      rcases h with ⟨all, hall, h⟩
      have hread := reads_of_eq_ok hall
      split at h
      next => cases h
      next c rest hrest =>
        cases h
        rcases blanks_iff.mp (blanks_skipBlanks s) with ⟨blanks, hs, hblanks⟩
        have hlocal := holdsLocally_chain (chain_of_reads hread)
        rw [← hrest]
        refine isViable_skipBlanks all.value hs (isBoundary_of_reads_chain hread)
          (List.forall_mem_nil _) hlocal ?_
        intro x y tail hy hx
        exact ⟨x, y, blanks_append hblanks x, hx, hy⟩

end Expression

theorem byteLength_append (s t : List Char) : byteLength (s ++ t) = byteLength s + byteLength t := by
  unfold byteLength
  rw [String.ofList_append, String.utf8ByteSize_append]

theorem byteLength_cons (c : Char) (s : List Char) :
    byteLength (c :: s) = byteLength [c] + byteLength s :=
  byteLength_append [c] s

section Parse

variable {text : String} {e : SyntaxError}

theorem exists_of_parse_eq_error (h : parse text = .error e) :
    ∃ front rest missing value, text.toList = front ++ rest ∧ e.position = byteLength front ∧
      IsBoundary text.toList rest ∧ (∀ c ∈ missing, isQuote c = false) ∧
      Derives (String.ofList (front ++ missing)) value := by
  unfold parse at h
  cases hexpression : expression text.toList with
  | ok value =>
    rw [hexpression] at h
    cases h
  | error failure =>
    rw [hexpression] at h
    cases h
    rcases isViable_expression hexpression with
      ⟨hboundary, front, missing, value, htext, hmissing, hexpressed⟩
    refine ⟨front, failure.rest, missing, value, htext, ?_, hboundary, hmissing, ?_⟩
    · dsimp only
      rw [htext, byteLength_append, Nat.add_sub_cancel]
    · rcases hexpressed [] with ⟨start, middle, hstart, hchain, hmiddle⟩
      refine ⟨start, middle, ?_, hchain, hmiddle⟩
      rw [String.toList_ofList]
      simpa using hstart

/--
A text that is refused can be continued from the place of the complaint to an expression. The place is one between
characters of the text or at one of its ends.
-/
theorem exists_continuation_of_parse_eq_error (h : parse text = .error e) :
    e.position ≤ text.utf8ByteSize ∧ ∃ front rest : String,
      text = front ++ rest ∧ front.utf8ByteSize = e.position ∧
      ∃ continuation expression, parse (front ++ continuation) = .ok expression := by
  rcases exists_of_parse_eq_error h with ⟨front, rest, missing, value, htext, hposition, _, _, hderives⟩
  have hsplit : text = String.ofList front ++ String.ofList rest := by
    rw [← String.ofList_append, ← htext, String.ofList_toList]
  have hsize : (String.ofList front).utf8ByteSize = e.position := hposition.symm
  refine ⟨?_, String.ofList front, String.ofList rest, hsplit, hsize, String.ofList missing, value, ?_⟩
  · rw [hsplit, String.utf8ByteSize_append, hsize]
    apply Nat.le_add_right
  · rw [← String.ofList_append]
    exact parse_eq_ok_of_derives hderives

theorem exists_continuation_of_parse_eq_error_parenthesis :
    let text := "a==1;(b=in=(x, 'é') or c"
    parse text = .error ⟨.operator, 25⟩ ∧ 25 ≤ text.utf8ByteSize ∧ ∃ front rest : String,
      text = front ++ rest ∧ front.utf8ByteSize = 25 ∧
      ∃ continuation expression, parse (front ++ continuation) = .ok expression := by
  intro text
  have hparse : parse text = .error ⟨.operator, 25⟩ := by decide +kernel
  exact ⟨hparse, exists_continuation_of_parse_eq_error hparse⟩

end Parse

end Criteria.Filter
