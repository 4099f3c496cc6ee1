import Criteria.Pattern.Scan
import Mathlib.Data.List.Forall2
import Mathlib.Logic.Relation

/-!
This module contains the proof that a scan finds out whether a text can be cut up as a pattern says. Between the
last run and the place where the scan is, each part takes one character. So however many characters that run takes,
what comes after the scan can only begin later, and a further run there makes up for it.
-/

namespace Criteria.Pattern

section Matches

variable {pattern : Pattern} {text : List Char}

theorem matches_nil_iff : Matches [] text ↔ text = [] := by
  constructor
  · intro h
    cases h
    rfl
  · intro h
    subst h
    exact .nil

theorem matches_anyRun_iff :
    Matches (.anyRun :: pattern) text ↔ ∃ run rest, text = run ++ rest ∧ Matches pattern rest := by
  constructor
  · intro h
    cases h with
    | anyRun run h => exact ⟨run, _, rfl, h⟩
  · intro h
    rcases h with ⟨run, rest, rfl, h⟩
    exact .anyRun run h

theorem matches_anyChar_iff :
    Matches (.anyChar :: pattern) text ↔ ∃ c rest, text = c :: rest ∧ Matches pattern rest := by
  constructor
  · intro h
    cases h with
    | anyChar c h => exact ⟨c, _, rfl, h⟩
  · intro h
    rcases h with ⟨c, rest, rfl, h⟩
    exact .anyChar c h

theorem matches_char_iff {c : Char} :
    Matches (.char c :: pattern) text ↔ ∃ rest, text = c :: rest ∧ Matches pattern rest := by
  constructor
  · intro h
    cases h with
    | char c h => exact ⟨_, rfl, h⟩
  · intro h
    rcases h with ⟨rest, rfl, h⟩
    exact .char c h

theorem matches_cons_iff_of_ne {part : Part} (hne : part ≠ .anyRun) :
    Matches (part :: pattern) text ↔
      ∃ c rest, text = c :: rest ∧ part.takes c ∧ Matches pattern rest := by
  cases part with
  | anyRun => exact absurd rfl hne
  | anyChar => simp [matches_anyChar_iff, Part.takes]
  | char d => simp [matches_char_iff, Part.takes]

theorem matches_anyRun_drop_iff {i : Nat} (hi : i ≤ text.length) :
    Matches (.anyRun :: pattern) (text.drop i) ↔
      ∃ k, i ≤ k ∧ k ≤ text.length ∧ Matches pattern (text.drop k) := by
  rw [matches_anyRun_iff]
  constructor
  · intro h
    rcases h with ⟨run, rest, htext, h⟩
    have hlength := congrArg List.length htext
    have hrest : rest = text.drop (i + run.length) := by
      rw [← List.drop_drop, htext, List.drop_left]
    simp at hlength
    subst hrest
    exact ⟨i + run.length, by omega, by omega, h⟩
  · intro h
    rcases h with ⟨k, hik, hk, h⟩
    refine ⟨(text.drop i).take (k - i), _, ?_, h⟩
    have : text.drop k = (text.drop i).drop (k - i) := by
      rw [List.drop_drop]
      congr
      omega
    rw [this, List.take_append_drop]

theorem matches_drop_of_append {parts : List Part} (hparts : ∀ part ∈ parts, part ≠ .anyRun)
    (h : Matches (parts ++ pattern) text) :
    parts.length ≤ text.length ∧ Matches pattern (text.drop parts.length) := by
  induction parts generalizing text with
  | nil => simpa using h
  | cons part parts ih =>
    rw [List.forall_mem_cons] at hparts
    rw [List.cons_append, matches_cons_iff_of_ne hparts.1] at h
    rcases h with ⟨c, rest, rfl, _, h⟩
    simpa using ih hparts.2 h

theorem matches_nil_right_iff :
    Matches pattern [] ↔ pattern.all fun part => part = .anyRun := by
  induction pattern with
  | nil => simp [matches_nil_iff]
  | cons part pattern ih =>
    by_cases hpart : part = .anyRun
    · subst hpart
      simp [matches_anyRun_iff, ← ih]
    · simp [matches_cons_iff_of_ne hpart, hpart]

end Matches

namespace Scan

variable {pattern : Array Part} {text : Array Char} {scan next : Scan}

theorem drop_of_getElem? {α : Type} {buffer : Array α} {i : Nat} {a : α} (h : buffer[i]? = some a) :
    buffer.toList.drop i = a :: buffer.toList.drop (i + 1) := by
  rw [Array.getElem?_eq_some_iff] at h
  rcases h with ⟨hi, rfl⟩
  rw [List.drop_eq_getElem_cons (by simpa using hi), Array.getElem_toList]

def IsStraight (pattern : Array Part) (scan : Scan) : Prop :=
  ∀ index reach, scan.run = some (index, reach) →
    ∃ parts, pattern.toList.drop (index + 1) = parts ++ pattern.toList.drop scan.partIndex ∧
      reach + parts.length = scan.textIndex ∧ ∀ part ∈ parts, part ≠ .anyRun

/--
Whether the pattern can still match, either from here on or after the last run has taken more characters.
-/
def CanMatch (pattern : Array Part) (text : Array Char) (scan : Scan) : Prop :=
  Matches (pattern.toList.drop scan.partIndex) (text.toList.drop scan.textIndex) ∨
    ∃ index reach, scan.run = some (index, reach) ∧ ∃ k, reach < k ∧ k ≤ text.size ∧
      Matches (pattern.toList.drop (index + 1)) (text.toList.drop k)

theorem exists_matches_of_run (hstraight : scan.IsStraight pattern) {index reach k : Nat}
    (hrun : scan.run = some (index, reach)) (hreach : reach < k) (hk : k ≤ text.size)
    (h : Matches (pattern.toList.drop (index + 1)) (text.toList.drop k)) :
    ∃ k', scan.textIndex < k' ∧ k' ≤ text.size ∧
      Matches (pattern.toList.drop scan.partIndex) (text.toList.drop k') := by
  rcases hstraight index reach hrun with ⟨parts, hparts, hlength, hne⟩
  rw [hparts] at h
  rcases matches_drop_of_append hne h with ⟨hle, h⟩
  simp at hle
  rw [List.drop_drop] at h
  exact ⟨k + parts.length, by omega, by omega, h⟩

theorem not_matches_of_mismatch {c : Char} (hc : text[scan.textIndex]? = some c)
    (h : ∀ part, pattern[scan.partIndex]? = some part → part ≠ .anyRun ∧ part.takes c = false) :
    ¬Matches (pattern.toList.drop scan.partIndex) (text.toList.drop scan.textIndex) := by
  rw [drop_of_getElem? hc]
  cases hpart : pattern[scan.partIndex]? with
  | none =>
    rw [Array.getElem?_eq_none_iff] at hpart
    rw [List.drop_eq_nil_of_le (by simpa using hpart), matches_nil_iff]
    simp
  | some part =>
    rcases h part hpart with ⟨hne, htakes⟩
    rw [drop_of_getElem? hpart, matches_cons_iff_of_ne hne]
    simp [htakes]

theorem isStraight_of_step (hstraight : scan.IsStraight pattern)
    (hstep : Step pattern text scan (.goOn next)) : next.IsStraight pattern := by
  intro index reach hrun
  cases hstep with
  | meetRun _ _ =>
    cases hrun
    exact ⟨[], by simp [meetRun]⟩
  | @advance part c _ hpart htakes =>
    rcases hstraight index reach hrun with ⟨parts, hparts, hlength, hne⟩
    refine ⟨parts ++ [part], ?_, ?_, ?_⟩
    · rw [hparts, drop_of_getElem? hpart]
      simp [advance]
    · simp [advance]
      omega
    · rw [List.forall_mem_append]
      refine ⟨hne, ?_⟩
      simp only [List.forall_mem_singleton]
      intro heq
      simp [heq, Part.takes] at htakes
  | goBack _ _ _ =>
    cases hrun
    exact ⟨[], by simp⟩

theorem canMatch_iff_of_step (hinside : scan.IsInside pattern text)
    (hstraight : scan.IsStraight pattern) (hstep : Step pattern text scan (.goOn next)) :
    next.CanMatch pattern text ↔ scan.CanMatch pattern text := by
  have htext : scan.textIndex ≤ text.toList.length := hinside.textIndex_le
  unfold CanMatch
  cases hstep with
  | meetRun hlt hpart =>
    -- A run that was met before is done with: what it could still achieve, the new one achieves as well.
    have hscan : Matches (pattern.toList.drop scan.partIndex) (text.toList.drop scan.textIndex) ↔
        ∃ k, scan.textIndex ≤ k ∧ k ≤ text.size ∧
          Matches (pattern.toList.drop (scan.partIndex + 1)) (text.toList.drop k) := by
      rw [drop_of_getElem? hpart, matches_anyRun_drop_iff htext]
      simp
    constructor
    · intro h
      left
      rw [hscan]
      rcases h with h | ⟨_, _, hrun, k, hk, hle, h⟩
      · exact ⟨scan.textIndex, Nat.le_refl _, hinside.textIndex_le, h⟩
      · cases hrun
        exact ⟨k, by omega, hle, h⟩
    · intro h
      have h : Matches (pattern.toList.drop scan.partIndex) (text.toList.drop scan.textIndex) := by
        rcases h with h | ⟨index, reach, hrun, k, hk, hle, h⟩
        · exact h
        · rcases exists_matches_of_run hstraight hrun hk hle h with ⟨k', hk', hle', h⟩
          rw [drop_of_getElem? hpart, matches_anyRun_drop_iff (by simpa using hle')] at h
          rw [hscan]
          rcases h with ⟨k'', hk'', hle'', h⟩
          exact ⟨k'', by omega, by simpa using hle'', h⟩
      rw [hscan] at h
      rcases h with ⟨k, hk, hle, h⟩
      rcases Nat.eq_or_lt_of_le hk with rfl | hlt
      · exact .inl h
      · exact .inr ⟨_, _, rfl, k, hlt, hle, h⟩
  | @advance part c hc hpart htakes =>
    have hne : part ≠ .anyRun := by
      intro heq
      simp [heq, Part.takes] at htakes
    rw [drop_of_getElem? hpart, drop_of_getElem? hc, matches_cons_iff_of_ne hne]
    simp [advance, htakes]
  | @goBack c index reach hc hmismatch hrun =>
    have hreach := (hinside.run index reach hrun).2
    have := lt_size_of_getElem? hc
    simp only [not_matches_of_mismatch hc hmismatch, false_or, hrun, Option.some.injEq,
      Prod.mk.injEq]
    constructor
    · intro h
      rcases h with h | ⟨_, _, ⟨rfl, rfl⟩, k, hk, hle, h⟩
      · exact ⟨index, reach, ⟨rfl, rfl⟩, reach + 1, by omega, by omega, h⟩
      · exact ⟨index, reach, ⟨rfl, rfl⟩, k, by omega, hle, h⟩
    · intro h
      rcases h with ⟨_, _, ⟨rfl, rfl⟩, k, hk, hle, h⟩
      rcases Nat.eq_or_lt_of_le hk with rfl | hlt
      · exact .inl h
      · exact .inr ⟨_, _, ⟨rfl, rfl⟩, k, hlt, hle, h⟩

theorem stop_iff_canMatch (hstraight : scan.IsStraight pattern) {isMatch : Bool}
    (hstep : Step pattern text scan (.stop isMatch)) : isMatch ↔ scan.CanMatch pattern text := by
  unfold CanMatch
  cases hstep with
  | fail hc hmismatch hrun => simp [not_matches_of_mismatch hc hmismatch, hrun]
  | finish htext hpart =>
    have hnil : text.toList.drop scan.textIndex = [] := List.drop_eq_nil_of_le (by simpa using htext)
    rw [hnil, matches_nil_right_iff]
    constructor
    · exact .inl
    · intro h
      rcases h with h | ⟨index, reach, hrun, k, hk, hle, h⟩
      · exact h
      · rcases exists_matches_of_run hstraight hrun hk hle h with ⟨k', hk', hle', _⟩
        omega

theorem finish_iff_canMatch (hinside : scan.IsInside pattern text)
    (hstraight : scan.IsStraight pattern) :
    scan.finish pattern text hinside ↔ scan.CanMatch pattern text := by
  fun_induction finish pattern text scan hinside with
  | case1 scan hinside next hstep ih =>
    have hstep := step_of_step? hstep
    rw [ih (isStraight_of_step hstraight hstep), canMatch_iff_of_step hinside hstraight hstep]
  | case2 scan hinside isMatch hstep =>
    exact stop_iff_canMatch hstraight (step_of_step? hstep)

def Reaches (pattern : Array Part) (text : Array Char) : Scan → Scan → Prop :=
  Relation.ReflTransGen fun scan next => scan.step? pattern text = some (.goOn next)

theorem isInside_of_reaches (hinside : scan.IsInside pattern text)
    (hreaches : Reaches pattern text scan next) : next.IsInside pattern text := by
  induction hreaches with
  | refl => exact hinside
  | tail _ hstep ih => exact isInside_of_step ih (step_of_step? hstep)

theorem exists_reaches_stop (hinside : scan.IsInside pattern text) :
    ∃ last, Reaches pattern text scan last ∧
      last.step? pattern text = some (.stop (scan.finish pattern text hinside)) := by
  fun_induction finish pattern text scan hinside with
  | case1 scan hinside next hstep ih =>
    rcases ih with ⟨last, hreaches, hlast⟩
    exact ⟨last, .head hstep hreaches, hlast⟩
  | case2 scan hinside isMatch hstep => exact ⟨scan, .refl, hstep⟩

end Scan

theorem isMatch_iff_matches {pattern : Pattern} {text : List Char} :
    pattern.isMatch text ↔ Matches pattern text := by
  unfold isMatch
  rw [Scan.finish_iff_canMatch _ (by simp [Scan.IsStraight])]
  simp [Scan.CanMatch]

def StandsFor (c : Char) (stretch : List Char) : Prop :=
  if c = '%' then True else if c = '_' then ∃ d, stretch = [d] else stretch = [c]

theorem matches_ofChar_cons_iff {c : Char} {pattern : Pattern} {text : List Char} :
    Matches (Part.ofChar c :: pattern) text ↔
      ∃ stretch rest, StandsFor c stretch ∧ text = stretch ++ rest ∧ Matches pattern rest := by
  unfold Part.ofChar StandsFor
  split
  next => simp [matches_anyRun_iff]
  next =>
    split
    next =>
      rw [matches_anyChar_iff]
      constructor
      · intro h
        rcases h with ⟨d, rest, htext, h⟩
        exact ⟨[d], rest, ⟨d, rfl⟩, htext, h⟩
      · intro h
        rcases h with ⟨_, rest, ⟨d, rfl⟩, htext, h⟩
        exact ⟨d, rest, htext, h⟩
    next => simp [matches_char_iff]

theorem matches_map_ofChar_iff {cs text : List Char} :
    Matches (cs.map Part.ofChar) text ↔
      ∃ stretches : List (List Char), stretches.flatten = text ∧ List.Forall₂ StandsFor cs stretches := by
  induction cs generalizing text with
  | nil => simp [matches_nil_iff, eq_comm]
  | cons c cs ih =>
    rw [List.map_cons, matches_ofChar_cons_iff]
    constructor
    · intro h
      rcases h with ⟨stretch, rest, hstretch, rfl, h⟩
      rcases ih.mp h with ⟨stretches, rfl, hstretches⟩
      exact ⟨stretch :: stretches, List.flatten_cons, .cons hstretch hstretches⟩
    · intro h
      rcases h with ⟨_, rfl, hstretches⟩
      cases hstretches with
      | @cons _ stretch _ stretches hstretch hstretches =>
        have hrest := ih.mpr ⟨stretches, rfl, hstretches⟩
        exact ⟨stretch, stretches.flatten, hstretch, List.flatten_cons, hrest⟩

/--
The scan of a text never looks beyond the end of the text or of the pattern, it comes to an end, and its answer is
whether the text can be cut up into stretches that the characters of the pattern stand for.
-/
theorem isLike_scans_inside_and_decides_cut (text pattern : String) :
    let buffer := text.toList.toArray
    let parts := (ofText pattern).toArray
    (∀ scan, Scan.Reaches parts buffer {} scan → ∃ outcome, scan.step? parts buffer = some outcome) ∧
      (∃ last, Scan.Reaches parts buffer {} last ∧
        last.step? parts buffer = some (.stop (isLike text pattern))) ∧
      (isLike text pattern ↔ ∃ stretches : List (List Char),
        stretches.flatten = text.toList ∧ List.Forall₂ StandsFor pattern.toList stretches) := by
  intro buffer parts
  have hinside := Scan.isInside_start parts buffer
  refine ⟨?_, ?_, ?_⟩
  · intro scan hreaches
    exact Scan.exists_step?_eq_some (Scan.isInside_of_reaches hinside hreaches)
  · exact Scan.exists_reaches_stop hinside
  · unfold isLike
    rw [isMatch_iff_matches]
    exact matches_map_ofChar_iff

end Criteria.Pattern
