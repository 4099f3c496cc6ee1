import Criteria.Proofs.Pattern.Regex

/-!
This module contains the proof that the source text of the regular expression for a pattern says what the
pattern says: it is read as the terms that the characters of the pattern stand for between two anchors, and it
is found in exactly those texts that are like the pattern.
-/

namespace Criteria.Regex

def Item.term : Item → Term
  | char c => .one (.char c)
  | any => .one .dot
  | anyMany => .many .dot

section Reading

variable {read : List Term}

theorem readTerms?_cons_of_ne {c : Char} (h : c ≠ '\\') (s : List Char) :
    readTerms? read (c :: s) = (readSymbol? c read).bind fun read => readTerms? read s := by
  rw [readTerms?]
  · cases readSymbol? c read <;> rfl
  · intro d rest hc
    exact absurd hc h

theorem readTerms?_escaped {c : Char} (h : isSpecial c) (s : List Char) :
    readTerms? read ('\\' :: c :: s) = readTerms? (.one (.char c) :: read) s := by
  rw [readTerms?, if_pos h]

theorem readTerms?_plain {c : Char} (h : isSpecial c = false) (s : List Char) :
    readTerms? read (c :: s) = readTerms? (.one (.char c) :: read) s := by
  have hne : ∀ d, isSpecial d → c ≠ d := by
    intro d hd hc
    rw [hc, hd] at h
    cases h
  rw [readTerms?_cons_of_ne (hne '\\' (by decide)), readSymbol?]
  rw [if_neg (hne '^' (by decide)), if_neg (hne '$' (by decide)), if_neg (hne '.' (by decide)),
    if_neg (hne '*' (by decide)), h]
  rfl

theorem readTerms?_source_append (item : Item) (s : List Char) :
    readTerms? read (item.source ++ s) = readTerms? (item.term :: read) s := by
  cases item with
  | char c =>
    rw [Item.source]
    by_cases h : isSpecial c
    · rw [if_pos h]
      apply readTerms?_escaped h
    · rw [if_neg h]
      apply readTerms?_plain
      exact Bool.eq_false_iff.2 h
  | any =>
    apply readTerms?_cons_of_ne
    decide
  | anyMany =>
    rw [Item.source, List.cons_append, readTerms?_cons_of_ne (by decide)]
    apply readTerms?_cons_of_ne
    decide

theorem readTerms?_flatMap_source_append (items : List Item) (s : List Char) :
    readTerms? read (items.flatMap Item.source ++ s) =
      readTerms? ((items.map Item.term).reverse ++ read) s := by
  induction items generalizing read with
  | nil => rfl
  | cons item items ih =>
    rw [List.flatMap_cons, List.append_assoc, readTerms?_source_append, ih]
    rw [List.map_cons, List.reverse_cons, List.append_assoc, List.singleton_append]

theorem read?_source (regex : Regex) :
    read? regex.source = some ⟨true, .start :: (regex.items.map Item.term ++ [.finish])⟩ := by
  have htext : regex.source.toList =
      '(' :: '?' :: 's' :: ')' :: '^' :: (regex.items.flatMap Item.source ++ ['$']) :=
    String.toList_ofList.trans (List.append_assoc _ _ _)
  have hfinish (read : List Term) : readTerms? read ['$'] = some (read.reverse ++ [.finish]) :=
    congrArg some List.reverse_cons
  have hterms : readTerms? [] ('^' :: (regex.items.flatMap Item.source ++ ['$'])) =
      some (.start :: (regex.items.map Item.term ++ [.finish])) := by
    rw [readTerms?_cons_of_ne (by decide)]
    refine (readTerms?_flatMap_source_append regex.items ['$']).trans ?_
    rw [hfinish, List.reverse_append, List.reverse_reverse]
    rfl
  rw [read?, htext]
  exact congrArg (Option.map (Expression.mk true)) hterms

end Reading

section Meaning

variable {dotAll : Bool} {terms : List Term} {single : Single} {before after : List Char}

theorem fits_nil : Fits dotAll [] before after :=
  .nil

theorem fits_start_iff : Fits dotAll (.start :: terms) before after ↔
    before = [] ∧ Fits dotAll terms before after := by
  constructor
  · intro h
    cases h with
    | start h => exact ⟨rfl, h⟩
  · intro h
    rcases h with ⟨rfl, h⟩
    exact .start h

theorem fits_finish_iff : Fits dotAll (.finish :: terms) before after ↔
    after = [] ∧ Fits dotAll terms before after := by
  constructor
  · intro h
    cases h with
    | finish h => exact ⟨rfl, h⟩
  · intro h
    rcases h with ⟨rfl, h⟩
    exact .finish h

theorem fits_one_iff : Fits dotAll (.one single :: terms) before after ↔
    ∃ c rest, after = c :: rest ∧ single.Takes dotAll c ∧ Fits dotAll terms (before ++ [c]) rest := by
  constructor
  · intro h
    cases h with
    | one c htakes h => exact ⟨c, _, rfl, htakes, h⟩
  · intro h
    rcases h with ⟨c, rest, rfl, htakes, h⟩
    exact .one c htakes h

theorem fits_many_iff : Fits dotAll (.many single :: terms) before after ↔
    ∃ run rest, after = run ++ rest ∧ (∀ c ∈ run, single.Takes dotAll c) ∧
      Fits dotAll terms (before ++ run) rest := by
  constructor
  · intro h
    cases h with
    | many run htakes h => exact ⟨run, _, rfl, htakes, h⟩
  · intro h
    rcases h with ⟨run, rest, rfl, htakes, h⟩
    exact .many run htakes h

theorem fits_term_iff {item : Item} : Fits true (item.term :: terms) before after ↔
    ∃ used rest, after = used ++ rest ∧ item.Takes used ∧ Fits true terms (before ++ used) rest := by
  cases item with
  | char c =>
    rw [Item.term, fits_one_iff]
    constructor
    · intro h
      rcases h with ⟨d, rest, rfl, hd, h⟩
      cases hd
      exact ⟨[c], rest, rfl, rfl, h⟩
    · intro h
      rcases h with ⟨_, rest, rfl, rfl, h⟩
      exact ⟨c, rest, rfl, rfl, h⟩
  | any =>
    rw [Item.term, fits_one_iff]
    constructor
    · intro h
      rcases h with ⟨c, rest, rfl, _, h⟩
      exact ⟨[c], rest, rfl, ⟨c, rfl⟩, h⟩
    · intro h
      rcases h with ⟨_, rest, rfl, ⟨c, rfl⟩, h⟩
      exact ⟨c, rest, rfl, .inl rfl, h⟩
  | anyMany =>
    rw [Item.term, fits_many_iff]
    constructor
    · intro h
      rcases h with ⟨run, rest, rfl, _, h⟩
      exact ⟨run, rest, rfl, trivial, h⟩
    · intro h
      rcases h with ⟨run, rest, rfl, _, h⟩
      exact ⟨run, rest, rfl, fun _ _ => .inl rfl, h⟩

theorem fits_iff_matches {items : List Item} :
    Fits true (items.map Item.term ++ [.finish]) before after ↔ Matches items after := by
  induction items generalizing before after with
  | nil =>
    rw [List.map_nil, List.nil_append, fits_finish_iff, matches_nil_iff]
    exact and_iff_left fits_nil
  | cons item items ih =>
    rw [List.map_cons, List.cons_append, fits_term_iff, matches_cons_iff]
    simp only [ih]

theorem found_iff_matches {items : List Item} {text : List Char} :
    Expression.Found ⟨true, .start :: (items.map Item.term ++ [.finish])⟩ text ↔ Matches items text := by
  unfold Expression.Found
  simp only [fits_start_iff, fits_iff_matches]
  constructor
  · intro h
    rcases h with ⟨before, after, rfl, rfl, h⟩
    exact h
  · intro h
    exact ⟨[], text, rfl, rfl, h⟩

end Meaning

/--
The anchored sequence of the characters of a pattern: `%` is any run of characters, `_` is any one character, and every
other character stands for itself. Newlines are characters like any other.
-/
def Expression.ofLike (pattern : String) : Expression :=
  let term (c : Char) : Term :=
    if c = '%' then .many .dot else if c = '_' then .one .dot else .one (.char c)
  ⟨true, .start :: (pattern.toList.map term ++ [.finish])⟩

theorem ofLike_eq (pattern : String) :
    Expression.ofLike pattern =
      ⟨true, .start :: ((ofPattern (Pattern.ofText pattern)).items.map Item.term ++ [.finish])⟩ := by
  unfold Expression.ofLike
  simp only [ofPattern, Pattern.ofText, List.map_map]
  congr 3
  apply List.map_congr_left
  intro c _
  simp only [Function.comp_apply, Pattern.Part.ofChar]
  split
  · rfl
  · split <;> rfl

/--
The source text of the regular expression for a pattern is read as an anchored sequence with a term for each
character of the pattern. It is found in exactly the texts that can be cut up as the pattern says, and these are
both the texts that the regular expression matches and those that are like the pattern.
-/
theorem read?_source_and_isMatch_eq_isLike (pattern : String) :
    read? (ofPattern (Pattern.ofText pattern)).source = some (.ofLike pattern) ∧
      ∀ text : String,
        ((Expression.ofLike pattern).Found text.toList ↔
          Pattern.Matches (Pattern.ofText pattern) text.toList) ∧
        ((Expression.ofLike pattern).Found text.toList ↔
          (ofPattern (Pattern.ofText pattern)).isMatch text.toList) ∧
        (ofPattern (Pattern.ofText pattern)).isMatch text.toList = isLike text pattern := by
  rw [ofLike_eq]
  refine ⟨read?_source _, ?_⟩
  intro text
  rw [found_iff_matches]
  exact ⟨matches_ofPattern_iff, isMatch_iff_matches.symm, isMatch_ofPattern _ _⟩

end Criteria.Regex
