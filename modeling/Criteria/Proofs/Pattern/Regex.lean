import Criteria.Pattern.Source
import Criteria.Proofs.Pattern.Scan

/-!
This module contains the proof that the regular expression for a pattern matches the same texts as the
pattern. Both are compared with what it means to match.
-/

namespace Criteria.Regex

def Item.Takes : Item → List Char → Prop
  | char c, used => used = [c]
  | any, used => ∃ c, used = [c]
  | anyMany, _ => True

theorem matches_nil_iff {text : List Char} : Matches [] text ↔ text = [] := by
  constructor
  · intro h
    cases h
    rfl
  · intro h
    subst h
    exact .nil

theorem matches_cons_iff {item : Item} {items : List Item} {text : List Char} :
    Matches (item :: items) text ↔
      ∃ used rest, text = used ++ rest ∧ item.Takes used ∧ Matches items rest := by
  constructor
  · intro h
    cases h with
    | char c h => exact ⟨[c], _, rfl, rfl, h⟩
    | any c h => exact ⟨[c], _, rfl, ⟨c, rfl⟩, h⟩
    | anyMany run h => exact ⟨run, _, rfl, trivial, h⟩
  · intro h
    rcases h with ⟨used, rest, rfl, htakes, h⟩
    cases item with
    | char c =>
      cases htakes
      exact .char c h
    | any =>
      rcases htakes with ⟨c, rfl⟩
      exact .any c h
    | anyMany => exact .anyMany used h

theorem mem_ends_iff {text rest : List Char} : rest ∈ ends text ↔ rest <:+ text := by
  induction text with
  | nil => simp [ends]
  | cons c text ih => rw [ends, List.mem_cons, ih, List.suffix_cons_iff]

def Nested (rests : List (List Char)) : Prop :=
  rests.Pairwise fun longer shorter => shorter <:+ longer

theorem nested_ends (text : List Char) : Nested (ends text) := by
  induction text with
  | nil => exact List.pairwise_singleton _ _
  | cons c text ih =>
    rw [ends, Nested, List.pairwise_cons]
    refine ⟨fun rest h => ?_, ih⟩
    rw [mem_ends_iff] at h
    exact List.suffix_cons_iff.2 (.inr h)

theorem suffix_of_cons_suffix_cons {c d : Char} {shorter longer : List Char}
    (h : c :: shorter <:+ d :: longer) : shorter <:+ longer := by
  rw [List.suffix_cons_iff] at h
  cases h with
  | inl h =>
    cases h
    exact List.suffix_refl _
  | inr h => exact List.IsSuffix.trans (List.suffix_cons c shorter) h

theorem nested_filterMap {f : List Char → Option (List Char)}
    (hf : ∀ text rest, f text = some rest → ∃ c, text = c :: rest) {rests : List (List Char)}
    (h : Nested rests) : Nested (rests.filterMap f) := by
  apply List.Pairwise.filterMap f _ h
  intro longer shorter hsuffix longer' hlonger shorter' hshorter
  rcases hf _ _ hshorter with ⟨c, rfl⟩
  rcases hf _ _ hlonger with ⟨d, rfl⟩
  exact suffix_of_cons_suffix_cons hsuffix

theorem eq_cons_of_char {c : Char} {text rest : List Char}
    (h : (if text.head? = some c then text.tail? else none) = some rest) : text = c :: rest := by
  split at h
  next hhead =>
    rcases List.head?_eq_some_iff.1 hhead with ⟨_, rfl⟩
    cases h
    rfl
  next => cases h

theorem eq_cons_of_tail? {text rest : List Char} (h : text.tail? = some rest) :
    ∃ c, text = c :: rest := by
  cases text with
  | nil => cases h
  | cons c text =>
    cases h
    exact ⟨c, rfl⟩

theorem nested_step {item : Item} {rests : List (List Char)} (h : Nested rests) :
    Nested (item.step rests) := by
  cases item with
  | char c => exact nested_filterMap (fun _ _ h => ⟨c, eq_cons_of_char h⟩) h
  | any => exact nested_filterMap (fun _ _ h => eq_cons_of_tail? h) h
  | anyMany =>
    cases rests with
    | nil => exact h
    | cons rest rests => exact nested_ends rest

theorem mem_step_iff {item : Item} {rests : List (List Char)} (h : Nested rests)
    {rest : List Char} :
    rest ∈ item.step rests ↔ ∃ text ∈ rests, ∃ used, text = used ++ rest ∧ item.Takes used := by
  cases item with
  | char c =>
    rw [Item.step, List.mem_filterMap]
    constructor
    · intro h
      rcases h with ⟨text, htext, hrest⟩
      exact ⟨text, htext, [c], eq_cons_of_char hrest, rfl⟩
    · intro h
      rcases h with ⟨text, htext, used, rfl, rfl⟩
      exact ⟨_, htext, by simp⟩
  | any =>
    rw [Item.step, List.mem_filterMap]
    constructor
    · intro h
      rcases h with ⟨text, htext, hrest⟩
      rcases eq_cons_of_tail? hrest with ⟨c, hc⟩
      exact ⟨text, htext, [c], hc, c, rfl⟩
    · intro h
      rcases h with ⟨text, htext, used, rfl, c, rfl⟩
      exact ⟨_, htext, rfl⟩
  | anyMany =>
    cases rests with
    | nil => simp [Item.step]
    | cons first rests =>
      rw [Item.step, mem_ends_iff]
      constructor
      · intro h
        rcases h with ⟨used, rfl⟩
        exact ⟨_, List.mem_cons_self, used, rfl, trivial⟩
      · intro h
        rcases h with ⟨text, htext, used, rfl, _⟩
        have hrest := List.suffix_append used rest
        -- All the rests are ends of the first, so what follows a run in one of them does so in the first.
        cases List.mem_cons.1 htext with
        | inl heq => rwa [heq] at hrest
        | inr hmem => exact hrest.trans (List.rel_of_pairwise_cons h hmem)

theorem mem_foldl_step_iff {items : List Item} {rests : List (List Char)} (h : Nested rests)
    {rest : List Char} :
    rest ∈ items.foldl (fun rests item => item.step rests) rests ↔
      ∃ text ∈ rests, ∃ used, text = used ++ rest ∧ Matches items used := by
  induction items generalizing rests with
  | nil =>
    simp only [List.foldl_nil, matches_nil_iff]
    constructor
    · intro hrest
      exact ⟨rest, hrest, [], rfl, rfl⟩
    · intro h
      rcases h with ⟨_, htext, _, rfl, rfl⟩
      exact htext
  | cons item items ih =>
    rw [List.foldl_cons, ih (nested_step h)]
    simp only [mem_step_iff h, matches_cons_iff]
    constructor
    · intro h
      rcases h with ⟨_, ⟨text, htext, first, rfl, htakes⟩, used, rfl, hmatches⟩
      refine ⟨_, htext, first ++ used, ?_, first, used, rfl, htakes, hmatches⟩
      rw [List.append_assoc]
    · intro h
      rcases h with ⟨_, htext, _, rfl, first, used, rfl, htakes, hmatches⟩
      refine ⟨used ++ rest, ⟨_, htext, first, ?_, htakes⟩, used, rfl, hmatches⟩
      rw [List.append_assoc]

theorem isMatch_iff_matches {regex : Regex} {text : List Char} :
    regex.isMatch text ↔ Matches regex.items text := by
  unfold isMatch
  rw [List.any_eq_true]
  simp only [mem_foldl_step_iff (List.pairwise_singleton _ text), List.mem_singleton,
    List.isEmpty_iff]
  constructor
  · intro h
    rcases h with ⟨_, ⟨_, rfl, used, rfl, h⟩, rfl⟩
    rwa [List.append_nil]
  · intro h
    exact ⟨[], ⟨text, rfl, text, (List.append_nil text).symm, h⟩, rfl⟩

theorem matches_ofPattern_iff {pattern : Pattern} {text : List Char} :
    Matches (ofPattern pattern).items text ↔ Pattern.Matches pattern text := by
  unfold ofPattern
  induction pattern generalizing text with
  | nil => rw [List.map_nil, matches_nil_iff, Pattern.matches_nil_iff]
  | cons part pattern ih =>
    dsimp only at ih
    simp only [List.map_cons, matches_cons_iff, ih]
    cases part with
    | anyRun => simp [Item.ofPart, Item.Takes, Pattern.matches_anyRun_iff]
    | anyChar =>
      simp only [Item.ofPart, Item.Takes, Pattern.matches_anyChar_iff]
      constructor
      · intro h
        rcases h with ⟨_, rest, rfl, ⟨c, rfl⟩, h⟩
        exact ⟨c, rest, rfl, h⟩
      · intro h
        rcases h with ⟨c, rest, rfl, h⟩
        exact ⟨[c], rest, rfl, ⟨c, rfl⟩, h⟩
    | char c =>
      simp only [Item.ofPart, Item.Takes, Pattern.matches_char_iff]
      constructor
      · intro h
        rcases h with ⟨_, rest, rfl, rfl, h⟩
        exact ⟨rest, rfl, h⟩
      · intro h
        rcases h with ⟨rest, rfl, h⟩
        exact ⟨[c], rest, rfl, rfl, h⟩

theorem isMatch_ofPattern (pattern : Pattern) (text : List Char) :
    (ofPattern pattern).isMatch text = pattern.isMatch text := by
  rw [Bool.eq_iff_iff, isMatch_iff_matches, Pattern.isMatch_iff_matches]
  exact matches_ofPattern_iff

end Criteria.Regex
