import Criteria.Proofs.Filter.Locality

/-!
This module contains the proof that completing null checks changes nothing in what the grammar of filter expressions
derives, and completes a null check where the grammar would miss an argument.
-/

namespace Criteria.Filter

open Grammar

section Equations

variable {c : Char} {s rest symbol content : List Char}

theorem completeNullChecks_of_quoted (hquote : isQuote c)
    (hquoted : unquote? c s = some (content, rest)) :
    completeNullChecks (c :: s) =
      (c :: s).take ((c :: s).length - rest.length) ++ completeNullChecks rest := by
  rw [completeNullChecks]
  split
  next heq =>
    rw [if_pos hquote, hquoted] at heq
    cases heq
    rfl
  next hnone =>
    rw [if_pos hquote, hquoted] at hnone
    cases hnone

theorem completeNullChecks_of_bare (hquote : isQuote c = false)
    (hbare : bareNullCheck? (c :: s) = some symbol) :
    completeNullChecks (c :: s) =
      symbol ++ "null".toList ++ completeNullChecks ((c :: s).drop symbol.length) := by
  rw [completeNullChecks]
  split
  next heq =>
    rw [if_neg (by simp [hquote])] at heq
    cases heq
  next =>
    split
    next heq =>
      rw [hbare] at heq
      cases heq
      rfl
    next hnone =>
      rw [hbare] at hnone
      cases hnone

theorem completeNullChecks_plain (hquoted : isQuote c → unquote? c s = none)
    (hbare : bareNullCheck? (c :: s) = none) :
    completeNullChecks (c :: s) = c :: completeNullChecks s := by
  rw [completeNullChecks]
  split
  next heq =>
    split at heq
    next hquote =>
      rw [hquoted hquote] at heq
      cases heq
    next => cases heq
  next =>
    split
    next heq =>
      rw [hbare] at heq
      cases heq
    next => rfl

theorem completeNullChecks_cons (hquote : isQuote c = false)
    (hbare : bareNullCheck? (c :: s) = none) :
    completeNullChecks (c :: s) = c :: completeNullChecks s := by
  apply completeNullChecks_plain _ hbare
  simp [hquote]

@[simp]
theorem completeNullChecks_nil : completeNullChecks [] = [] := by rw [completeNullChecks]

end Equations

section BareNullCheck

variable {c : Char} {s rest symbol : List Char}

theorem named_of_mem_nullCheckSymbols (h : symbol ∈ nullCheckSymbols) :
    ∃ name, symbol = '=' :: (name ++ ['=']) ∧ name ≠ [] ∧ ∀ c ∈ name, c.isAlpha := by
  have hall : ∀ symbol ∈ nullCheckSymbols,
      symbol = '=' :: (symbol.tail.dropLast ++ ['=']) ∧ symbol.tail.dropLast ≠ [] ∧
        symbol.tail.dropLast.all Char.isAlpha := by decide
  rcases hall symbol h with ⟨hsymbol, hne, hletters⟩
  exact ⟨_, hsymbol, hne, List.all_eq_true.mp hletters⟩

theorem exists_of_bareNullCheck?_eq_some (h : bareNullCheck? s = some symbol) :
    symbol ∈ nullCheckSymbols ∧ ∃ rest, s = symbol ++ rest ∧ endsComparison rest := by
  unfold bareNullCheck? at h
  have hmem := List.mem_of_find?_eq_some h
  have hfound := List.find?_some h
  rw [Bool.and_eq_true, List.isPrefixOf_iff_prefix] at hfound
  rcases hfound with ⟨⟨rest, rfl⟩, hends⟩
  rw [List.drop_left] at hends
  exact ⟨hmem, rest, rfl, hends⟩

theorem named_of_bareNullCheck? (h : bareNullCheck? s = some symbol) :
    ∃ name rest, s = '=' :: (name ++ '=' :: rest) ∧ name ≠ [] ∧ (∀ c ∈ name, c.isAlpha) ∧
      endsComparison rest := by
  rcases exists_of_bareNullCheck?_eq_some h with ⟨hmem, rest, rfl, hends⟩
  rcases named_of_mem_nullCheckSymbols hmem with ⟨name, rfl, hne, hletters⟩
  refine ⟨name, rest, ?_, hne, hletters, hends⟩
  simp

theorem bareNullCheck?_append (hmem : symbol ∈ nullCheckSymbols) (hends : endsComparison rest) :
    bareNullCheck? (symbol ++ rest) = some symbol := by
  have hprefix : symbol.isPrefixOf (symbol ++ rest) := by
    rw [List.isPrefixOf_iff_prefix]
    apply List.prefix_append
  cases hbare : bareNullCheck? (symbol ++ rest) with
  | none =>
    unfold bareNullCheck? at hbare
    have hnot := List.find?_eq_none.mp hbare symbol hmem
    rw [List.drop_left, hprefix, hends] at hnot
    exact absurd rfl hnot
  | some symbol' =>
    unfold bareNullCheck? at hbare
    have hmem' := List.mem_of_find?_eq_some hbare
    have hfound := List.find?_some hbare
    rw [Bool.and_eq_true, List.isPrefixOf_iff_prefix] at hfound
    have hunique : ∀ symbol ∈ nullCheckSymbols, ∀ symbol' ∈ nullCheckSymbols,
        symbol <+: symbol' → symbol = symbol' := by decide
    cases List.prefix_or_prefix_of_prefix (List.prefix_append symbol rest) hfound.1 with
    | inl h => rw [hunique _ hmem _ hmem' h]
    | inr h => rw [hunique _ hmem' _ hmem h]

theorem bareNullCheck?_cons_of_ne (h : c ≠ '=') (s : List Char) : bareNullCheck? (c :: s) = none := by
  cases hbare : bareNullCheck? (c :: s) with
  | none => rfl
  | some symbol =>
    rcases named_of_bareNullCheck? hbare with ⟨name, rest, heq, _⟩
    cases heq
    exact absurd rfl h

theorem completeNullChecks_cons_of_ne (hquote : isQuote c = false) (h : c ≠ '=') (s : List Char) :
    completeNullChecks (c :: s) = c :: completeNullChecks s := by
  apply completeNullChecks_cons hquote
  apply bareNullCheck?_cons_of_ne h

theorem completeNullChecks_symbol (hmem : symbol ∈ nullCheckSymbols) (hends : endsComparison rest) :
    completeNullChecks (symbol ++ rest) = symbol ++ "null".toList ++ completeNullChecks rest := by
  have hbare := bareNullCheck?_append hmem hends
  rcases named_of_mem_nullCheckSymbols hmem with ⟨name, hsymbol, _⟩
  have hcons : symbol ++ rest = '=' :: (name ++ ['='] ++ rest) := by
    rw [hsymbol]
    rfl
  rw [hcons] at hbare ⊢
  rw [completeNullChecks_of_bare (by decide) hbare, ← hcons, List.drop_left]

theorem ends_of_endsComparison (h : endsComparison s) : Ends s := by
  intro c hc
  cases s with
  | nil => cases hc
  | cons d s =>
    cases hc
    unfold endsComparison at h
    rw [Bool.or_eq_true, Bool.or_eq_true, Bool.or_eq_true, decide_eq_true_iff, decide_eq_true_iff,
      decide_eq_true_iff] at h
    rcases h with ((rfl | rfl) | rfl) | hblank
    · decide
    · decide
    · decide
    · exact isReserved_of_isBlank hblank

theorem isReserved_eq_false_of_isAlphanum (h : c.isAlphanum) : isReserved c = false := by
  have hmarks : ['"', '\'', '(', ')', ';', ',', '=', '!', '~', '<', '>'].any Char.isAlphanum = false := by
    decide
  unfold isReserved
  rw [Text.isBlank_eq_false_of_isAlphanum h, Bool.or_false, ← Bool.not_eq_true, List.contains_iff_mem]
  intro hmem
  exact List.any_eq_false.mp hmarks c hmem h

theorem isReserved_eq_false_of_isAlpha (h : c.isAlpha) : isReserved c = false := by
  apply isReserved_eq_false_of_isAlphanum
  rw [Char.isAlphanum, h, Bool.true_or]

end BareNullCheck

section Keeps

variable {c : Char} {s s' rest : List Char}

/--
What it means that in the front of a text, up to a rest, there are no null checks to complete.
-/
def Keeps (s rest : List Char) : Prop :=
  ∃ front, s = front ++ rest ∧ completeNullChecks s = front ++ completeNullChecks rest

theorem keeps_refl (s : List Char) : Keeps s s :=
  ⟨[], rfl, rfl⟩

theorem keeps_trans (h : Keeps s s') (h' : Keeps s' rest) : Keeps s rest := by
  rcases h with ⟨front, rfl, hfront⟩
  rcases h' with ⟨front', rfl, hfront'⟩
  refine ⟨front ++ front', by simp, ?_⟩
  rw [hfront, hfront', List.append_assoc]

theorem keeps_cons (hquote : isQuote c = false) (h : c ≠ '=') (s : List Char) :
    Keeps (c :: s) s :=
  ⟨[c], rfl, completeNullChecks_cons_of_ne hquote h s⟩

theorem keeps_of_append {front : List Char} (h : ∀ c ∈ front, isQuote c = false ∧ c ≠ '=')
    (rest : List Char) : Keeps (front ++ rest) rest := by
  induction front with
  | nil => apply keeps_refl
  | cons c front ih =>
    rw [List.forall_mem_cons] at h
    exact keeps_trans (keeps_cons h.1.1 h.1.2 _) (ih h.2)

theorem isQuote_eq_false_of_isBlank (h : Text.isBlank c) : isQuote c = false := by
  rw [← Bool.not_eq_true]
  intro hquote
  rw [isBlank_eq_false_of_isQuote hquote] at h
  cases h

theorem ne_equals_of_isBlank (h : Text.isBlank c) : c ≠ '=' := by
  intro hc
  rw [hc] at h
  exact absurd h (by decide)

theorem keeps_blanks (h : Blanks s rest) : Keeps s rest := by
  rcases blanks_iff.mp h with ⟨front, rfl, hfront⟩
  apply keeps_of_append
  intro c hc
  exact ⟨isQuote_eq_false_of_isBlank (hfront c hc), ne_equals_of_isBlank (hfront c hc)⟩

theorem ne_equals_of_not_isReserved (h : isReserved c = false) : c ≠ '=' := by
  intro hc
  rw [hc] at h
  exact absurd h (by decide)

theorem keeps_word {content : List Char} (h : Word s content rest) : Keeps s rest := by
  rcases many_iff.mp h with ⟨_, rfl, hall⟩
  apply keeps_of_append
  intro c hc
  have hword := hall c hc
  rw [Bool.not_eq_true'] at hword
  exact ⟨isQuote_eq_false_of_not_isReserved hword, ne_equals_of_not_isReserved hword⟩

theorem keeps_letters {name : List Char} (h : ∀ c ∈ name, c.isAlpha) (rest : List Char) :
    Keeps (name ++ rest) rest := by
  apply keeps_of_append
  intro c hc
  have hword := isReserved_eq_false_of_isAlpha (h c hc)
  exact ⟨isQuote_eq_false_of_not_isReserved hword, ne_equals_of_not_isReserved hword⟩

theorem keeps_quoted {quote : Char} {content : List Char} (hquote : isQuote quote)
    (h : Quoted quote s content rest) : Keeps (quote :: s) rest := by
  have hquoted := unquote?_eq_of_quoted (ne_backslash_of_isQuote hquote) h
  rcases holdsLocally_quoted hquote h with ⟨front, rfl, _⟩
  refine ⟨quote :: front, rfl, ?_⟩
  rw [completeNullChecks_of_quoted hquote hquoted]
  congr 1
  rw [← List.cons_append, List.length_append, Nat.add_sub_cancel, List.take_left]

theorem keeps_argument {value : String} (h : Argument s value rest) : Keeps s rest := by
  cases h with
  | bare h => exact keeps_word h
  | quoted hquote h => exact keeps_quoted hquote h

theorem keeps_argumentGroup {values : List String} (h : ArgumentGroup s values rest) :
    Keeps s rest := by
  induction h with
  | one hblanks hargument hclose =>
    have hfront := keeps_trans (keeps_blanks hblanks) (keeps_argument hargument)
    have hback := keeps_trans (keeps_blanks hclose) (keeps_cons (by decide) (by decide) _)
    exact keeps_trans hfront hback
  | cons hblanks hargument hcomma _ ih =>
    have hfront := keeps_trans (keeps_blanks hblanks) (keeps_argument hargument)
    have hback := keeps_trans (keeps_blanks hcomma) (keeps_cons (by decide) (by decide) _)
    exact keeps_trans (keeps_trans hfront hback) ih

theorem keeps_arguments {values : List String} (h : Arguments s values rest) : Keeps s rest := by
  cases h with
  | single h => exact keeps_argument h
  | group h => exact keeps_trans (keeps_cons (by decide) (by decide) _) (keeps_argumentGroup h)

end Keeps

section Comparison

variable {s s' rest : List Char} {values : List String}

theorem isReserved_of_endsComparison {c : Char} (h : endsComparison (c :: s)) : isReserved c :=
  ends_of_endsComparison h c rfl

theorem endsComparison_of_isQuote {c : Char} (h : isQuote c) (s : List Char) :
    endsComparison (c :: s) = false := by
  rcases isQuote_iff.mp h with rfl | rfl
  · rfl
  · rfl

theorem endsComparison_of_not_isReserved {c : Char} (h : isReserved c = false) (s : List Char) :
    endsComparison (c :: s) = false := by
  rw [← Bool.not_eq_true]
  intro hends
  rw [isReserved_of_endsComparison hends] at h
  cases h

theorem endsComparison_of_arguments (h : Arguments s values rest) : endsComparison s = false := by
  cases h with
  | single h =>
    cases s with
    | nil => cases h with | bare h => cases h
    | cons c s =>
      cases head_of_argument h with
      | inl hword => exact endsComparison_of_not_isReserved hword s
      | inr hquote => exact endsComparison_of_isQuote hquote s
  | group _ => rfl

theorem ne_name_of_arguments {name tail : List Char} (h : Arguments s values rest)
    (hrest : endsComparison rest) (hne : name ≠ []) (hletters : ∀ c ∈ name, c.isAlpha) :
    s ≠ name ++ '=' :: tail := by
  rintro rfl
  have hword : ∀ c ∈ name, isReserved c = false :=
    fun c hc => isReserved_eq_false_of_isAlpha (hletters c hc)
  cases name with
  | nil => exact hne rfl
  | cons c name =>
    have hc := hword c (List.mem_cons_self ..)
    cases h with
    | group _ => exact absurd hc (by decide)
    | single h =>
      cases h with
      | quoted hquote _ =>
        rw [isQuote_eq_false_of_not_isReserved hc] at hquote
        cases hquote
      | bare h =>
        have hname := takeWhile_of_many_cons (word_append hne hword ('=' :: tail)) rfl
        have hcontent := takeWhile_of_many h (by
          intro d hd
          rw [ends_of_endsComparison hrest d hd]
          rfl)
        have hequals : endsComparison ('=' :: tail) = false := rfl
        rw [← hcontent.2, hname.2, hequals] at hrest
        cases hrest

theorem keeps_equals (h : ∀ name tail, s = name ++ '=' :: tail → name ≠ [] →
      (∀ c ∈ name, c.isAlpha) → endsComparison tail = false) : Keeps ('=' :: s) s := by
  refine ⟨['='], rfl, ?_⟩
  apply completeNullChecks_cons (by decide)
  cases hbare : bareNullCheck? ('=' :: s) with
  | none => rfl
  | some symbol =>
    rcases named_of_bareNullCheck? hbare with ⟨name, tail, heq, hne, hletters, hends⟩
    cases heq
    rw [h name tail rfl hne hletters] at hends
    cases hends

theorem keeps_equals_of_endsComparison (h : endsComparison rest) : Keeps ('=' :: rest) rest := by
  apply keeps_equals
  intro name tail hrest hne hletters
  cases name with
  | nil => exact absurd rfl hne
  | cons c name =>
    have hc := isReserved_eq_false_of_isAlpha (hletters c List.mem_cons_self)
    rw [hrest, List.cons_append, endsComparison_of_not_isReserved hc] at h
    cases h

theorem keeps_equals_arguments (h : Arguments s values rest) (hrest : endsComparison rest) :
    Keeps ('=' :: s) s := by
  apply keeps_equals
  intro name tail hs hne hletters
  exact absurd hs (ne_name_of_arguments h hrest hne hletters)

theorem keeps_symbol {symbol : String} (h : Symbol s symbol s') (harguments : Arguments s' values rest)
    (hrest : endsComparison rest) : Keeps s s' := by
  have hlast := keeps_equals_arguments harguments hrest
  cases h with
  | equal =>
    refine keeps_trans (keeps_equals ?_) hlast
    intro name tail hs hne hletters
    cases name with
    | nil => exact absurd rfl hne
    | cons c name =>
      cases hs
      exact absurd (hletters '=' (List.mem_cons_self ..)) (by decide)
  | notEqual => exact keeps_trans (keeps_cons (by decide) (by decide) _) hlast
  | @named s name _ h =>
    have hname := takeWhile_of_many_cons h rfl
    refine keeps_trans (keeps_equals ?_) (keeps_trans ?_ hlast)
    · -- The arguments follow the only name that can be read here, and they do not end the comparison.
      intro name' tail hs hne hletters
      have hmany : Many Char.isAlpha s name' ('=' :: tail) := many_iff.mpr ⟨hne, hs, hletters⟩
      have hname' := takeWhile_of_many_cons hmany rfl
      rw [hname.2] at hname'
      cases hname'.2
      exact endsComparison_of_arguments harguments
    · rcases many_iff.mp h with ⟨_, rfl, hletters⟩
      exact keeps_letters hletters _

end Comparison

section Chain

variable {connective : Connective} {s s' rest : List Char}

theorem endsComparison_of_isBlank {c : Char} (h : Text.isBlank c) (s : List Char) :
    endsComparison (c :: s) := by
  unfold endsComparison
  dsimp only
  rw [h, Bool.or_true]

theorem endsComparison_of_blanks (h : Blanks s rest) (hrest : endsComparison rest) :
    endsComparison s := by
  cases h with
  | nil => exact hrest
  | cons hblank _ => exact endsComparison_of_isBlank hblank _

theorem endsComparison_of_separator (h : Separator connective s rest) : endsComparison s := by
  cases h with
  | char h =>
    apply endsComparison_of_blanks h
    cases connective <;> rfl
  | word hblank _ _ _ => exact endsComparison_of_isBlank hblank _

theorem toLower_eq_of_isQuote {c : Char} (h : isQuote c) : c.toLower = c := by
  rcases isQuote_iff.mp h with rfl | rfl
  · rfl
  · rfl

theorem keeps_separator (h : Separator connective s rest) : Keeps s rest := by
  cases h with
  | char h =>
    refine keeps_trans (keeps_blanks h) (keeps_cons ?_ ?_ rest)
    · cases connective <;> decide
    · cases connective <;> decide
  | @word blank next s word rest hblank hblanks hword _ =>
    refine keeps_trans (keeps_blanks (.cons hblank hblanks)) (keeps_of_append ?_ _)
    have hletters : connective.toText.toList.any isQuote = false := by
      cases connective <;> decide
    have hequals : '=' ∉ connective.toText.toList := by
      cases connective <;> decide
    intro c hc
    have hmem : c.toLower ∈ connective.toText.toList := by
      rw [← hword]
      exact List.mem_map_of_mem hc
    constructor
    · rw [← Bool.not_eq_true]
      intro hquote
      rw [toLower_eq_of_isQuote hquote] at hmem
      exact List.any_eq_false.mp hletters c hmem hquote
    · rintro rfl
      exact hequals hmem

-- The recursion is on the derivations.
mutual

theorem keeps_chain {connective : Connective} {s rest : List Char} {value : Expression}
    (h : Chain connective s value rest) (hrest : endsComparison rest) : Keeps s rest := by
  match h with
  | .single hpart => exact keeps_part hpart hrest
  | .group hparts => exact keeps_parts hparts hrest

theorem keeps_parts {connective : Connective} {s rest : List Char} {parts : List Expression}
    (h : Grammar.Parts connective s parts rest) (hrest : endsComparison rest) : Keeps s rest := by
  match h with
  | .one hpart => exact keeps_part hpart hrest
  | .cons hpart hseparator hparts =>
    have hfirst := keeps_part hpart (endsComparison_of_separator hseparator)
    have hothers := keeps_parts hparts hrest
    exact keeps_trans hfirst (keeps_trans (keeps_separator hseparator) hothers)

theorem keeps_part {connective : Connective} {s rest : List Char} {value : Expression}
    (h : Part connective s value rest) (hrest : endsComparison rest) : Keeps s rest := by
  match h with
  | .conjunction hchain => exact keeps_chain hchain hrest
  | .comparison hblanks hselector hsymbol harguments =>
    have hfront := keeps_trans (keeps_blanks hblanks) (keeps_word hselector)
    have hback := keeps_trans (keeps_symbol hsymbol harguments hrest) (keeps_arguments harguments)
    exact keeps_trans hfront hback
  | .parentheses hopen hchain hclose =>
    have hfront := keeps_trans (keeps_blanks hopen) (keeps_cons (by decide) (by decide) _)
    have hinside := keeps_chain hchain (endsComparison_of_blanks hclose rfl)
    have hback := keeps_trans (keeps_blanks hclose) (keeps_cons (by decide) (by decide) _)
    exact keeps_trans hfront (keeps_trans hinside hback)

end

end Chain

end Criteria.Filter
