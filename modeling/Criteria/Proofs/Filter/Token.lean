import Criteria.Filter.Grammar
import Criteria.Filter.Parser
import Criteria.Proofs.Except

/-!
This module contains the proof that blanks, words and symbols are read as the grammar of filter expressions has
them. A word has to be read up to its end, which is what `Ends` is about.
-/

namespace Criteria.Filter

open Grammar

/--
What it means that a parser reads a value off the front of a text and leaves the rest.
-/
def Reads {α : Type} {s : List Char} (result : Except Failure (Text.Parsed α s)) (value : α)
    (rest : List Char) : Prop :=
  ∃ hlt, result = .ok ⟨value, rest, hlt⟩

section Reads

variable {α β : Type} {s : List Char} {value : α} {rest : List Char}

theorem reads_of_eq_ok {result : Except Failure (Text.Parsed α s)} {parsed : Text.Parsed α s}
    (h : result = .ok parsed) : Reads result parsed.value parsed.rest := by
  exact ⟨parsed.length_lt, h⟩

theorem reads_pure_iff {parsed : Text.Parsed α s} :
    Reads (pure parsed) value rest ↔ parsed.value = value ∧ parsed.rest = rest := by
  unfold Reads
  constructor
  · intro h
    rcases h with ⟨_, h⟩
    cases h
    exact ⟨rfl, rfl⟩
  · intro h
    rcases h with ⟨rfl, rfl⟩
    exact ⟨parsed.length_lt, rfl⟩

theorem not_reads_error {failure : Failure} :
    ¬Reads (.error failure : Except Failure (Text.Parsed α s)) value rest := by
  intro h
  rcases h with ⟨_, h⟩
  cases h

theorem reads_bind_iff {x : Except Failure β} {f : β → Except Failure (Text.Parsed α s)} :
    Reads (x >>= f) value rest ↔ ∃ b, x = .ok b ∧ Reads (f b) value rest := by
  unfold Reads
  simp only [Except.bind_eq_ok_iff]
  constructor
  · intro h
    rcases h with ⟨hlt, b, hx, hf⟩
    exact ⟨b, hx, hlt, hf⟩
  · intro h
    rcases h with ⟨b, hx, hlt, hf⟩
    exact ⟨hlt, b, hx, hf⟩

end Reads

theorem skipBlanks_eq_of_blanks {s t : List Char} (h : Blanks s t) :
    skipBlanks s = skipBlanks t := by
  unfold skipBlanks
  induction h with
  | nil => rfl
  | cons hblank _ ih => rw [List.dropWhile_cons_of_pos hblank, ih]

theorem skipBlanks_cons {c : Char} (h : Text.isBlank c = false) (s : List Char) :
    skipBlanks (c :: s) = c :: s := by
  unfold skipBlanks
  rw [List.dropWhile_cons_of_neg]
  simp [h]

theorem skipBlanks_eq_cons_of_blanks {c : Char} {s t : List Char} (h : Blanks s (c :: t))
    (hc : Text.isBlank c = false) : skipBlanks s = c :: t := by
  rw [skipBlanks_eq_of_blanks h, skipBlanks_cons hc]

theorem blanks_skipBlanks (s : List Char) : Blanks s (skipBlanks s) := by
  apply blanks_dropWhile

theorem blanks_of_skipBlanks_eq {s t : List Char} (h : skipBlanks s = t) : Blanks s t := by
  rw [← h]
  apply blanks_skipBlanks

theorem blanks_trans {s t u : List Char} (h₁ : Blanks s t) (h₂ : Blanks t u) : Blanks s u := by
  induction h₁ with
  | nil => exact h₂
  | cons hblank _ ih =>
    apply Blanks.cons hblank
    apply ih h₂

theorem blanks_nil_iff {s : List Char} : Blanks s [] ↔ skipBlanks s = [] := by
  constructor
  · intro h
    rw [skipBlanks_eq_of_blanks h]
    rfl
  · apply blanks_of_skipBlanks_eq

theorem isReserved_of_isBlank {c : Char} (h : Text.isBlank c) : isReserved c := by
  unfold isReserved
  rw [h, Bool.or_true]

theorem isBlank_eq_false_of_not_isReserved {c : Char} (h : isReserved c = false) :
    Text.isBlank c = false := by
  unfold isReserved at h
  rw [Bool.or_eq_false_iff] at h
  exact h.2

def Ends (s : List Char) : Prop :=
  ∀ c ∈ s.head?, isReserved c

theorem ends_cons {c : Char} (h : isReserved c) (s : List Char) : Ends (c :: s) := by
  intro d hd
  cases hd
  exact h

theorem ends_of_blanks {s t : List Char} (h : Blanks s t) (ht : Ends t) : Ends s := by
  cases h with
  | nil => exact ht
  | cons hblank _ =>
    apply ends_cons
    apply isReserved_of_isBlank hblank

theorem ends_nil : Ends [] := by
  intro c hc
  cases hc

section Many

variable {p : Char → Bool} {s content rest : List Char}

theorem many_iff :
    Many p s content rest ↔ content ≠ [] ∧ s = content ++ rest ∧ ∀ c ∈ content, p c := by
  constructor
  · intro h
    induction h with
    | one hc => simp [hc]
    | cons hc _ ih =>
      rw [ih.2.1, List.forall_mem_cons]
      exact ⟨List.cons_ne_nil _ _, rfl, hc, ih.2.2⟩
  · intro h
    rcases h with ⟨hne, rfl, hall⟩
    induction content with
    | nil => exact absurd rfl hne
    | cons c content ih =>
      rw [List.forall_mem_cons] at hall
      cases content with
      | nil => exact .one hall.1
      | cons d content =>
        apply Many.cons hall.1
        apply ih
        · apply List.cons_ne_nil
        · exact hall.2

theorem head_of_many {c : Char} (h : Many p (c :: s) content rest) : p c := by
  cases h with
  | one hc => exact hc
  | cons hc _ => exact hc

theorem takeWhile_of_many (h : Many p s content rest) (hrest : ∀ c ∈ rest.head?, p c = false) :
    s.takeWhile p = content ∧ s.dropWhile p = rest := by
  rw [many_iff] at h
  rcases h with ⟨_, rfl, hall⟩
  have htake : rest.takeWhile p = [] ∧ rest.dropWhile p = rest := by
    cases rest with
    | nil => simp
    | cons c rest =>
      have := hrest c rfl
      simp [this]
  rw [List.takeWhile_append_of_pos hall, List.dropWhile_append_of_pos hall, htake.1, htake.2]
  exact ⟨List.append_nil _, rfl⟩

theorem takeWhile_of_many_cons {c : Char} (h : Many p s content (c :: rest)) (hc : p c = false) :
    s.takeWhile p = content ∧ s.dropWhile p = c :: rest := by
  apply takeWhile_of_many h
  intro d hd
  cases hd
  exact hc

end Many

section Word

variable {s rest : List Char} {value : String}

theorem word_of_reads {complaint : Complaint} (h : Reads (word complaint s) value rest) :
    ∃ content, Word s content rest ∧ value = String.ofList content := by
  rcases h with ⟨hlt, h⟩
  unfold word at h
  dsimp only at h
  split at h
  next c cs hc =>
    cases h
    refine ⟨c :: cs, ?_, rfl⟩
    rw [← hc]
    apply many_takeWhile
    rw [hc]
    apply List.cons_ne_nil
  next => cases h

theorem head_of_word {c : Char} {content : List Char} (h : Word (c :: s) content rest) :
    isReserved c = false := by
  have hc := head_of_many h
  rw [Bool.not_eq_true'] at hc
  exact hc

theorem reads_word (complaint : Complaint) {content : List Char} (h : Word s content rest)
    (hrest : Ends rest) : Reads (word complaint s) (String.ofList content) rest := by
  have hread := takeWhile_of_many h (by
    intro c hc
    simp [hrest c hc])
  have hword := many_iff.mp h
  rcases hword with ⟨hne, hs, _⟩
  have hlt : rest.length < s.length := by
    rw [hs, List.length_append]
    have := List.length_pos_iff.mpr hne
    omega
  refine ⟨hlt, ?_⟩
  unfold word
  dsimp only
  split
  next c cs hc =>
    rw [hread.1] at hc
    subst hc
    simp only [hread.2]
  next hnil =>
    rw [hread.1] at hnil
    exact absurd hnil hne

end Word

section Symbol

variable {s rest : List Char} {value : String}

theorem symbol_of_reads (h : Reads (symbol s) value rest) : Symbol s value rest := by
  rcases h with ⟨hlt, h⟩
  unfold symbol at h
  split at h
  next =>
    cases h
    exact .equal
  next =>
    cases h
    exact .notEqual
  next named _ =>
    split at h
    next c cs tail htake hdrop =>
      cases h
      rw [← htake]
      apply Symbol.named
      rw [← hdrop]
      apply many_takeWhile
      rw [htake]
      apply List.cons_ne_nil
    next => cases h
  next => cases h

theorem reads_symbol (h : Symbol s value rest) : Reads (symbol s) value rest := by
  cases h with
  | equal => exact ⟨_, rfl⟩
  | notEqual => exact ⟨_, rfl⟩
  | @named s name _ h =>
    have hread := takeWhile_of_many_cons h rfl
    generalize ht : '=' :: s = t
    unfold symbol
    split
    next =>
      -- There is a letter after the first equals sign, so the second cannot follow it.
      cases ht
      cases h with
      | one hc => exact absurd hc (by decide)
      | cons hc _ => exact absurd hc (by decide)
    next => cases ht
    next =>
      cases ht
      split
      next htake hdrop =>
        rw [hread.1] at htake
        rw [hread.2] at hdrop
        cases htake
        cases hdrop
        exact ⟨_, rfl⟩
      next hother =>
        cases name with
        | nil => exact absurd rfl (many_iff.mp h).1
        | cons c cs => exact (hother c cs rest hread.1 hread.2).elim
    next hother => exact (hother s ht.symm).elim

end Symbol

end Criteria.Filter
