import Criteria.Pattern.Basic

/-!
This module contains the matching of texts with patterns. A scan goes along a text and a pattern at once. Where the
two do not agree, it goes back to the last run that it has met and lets this run take one more character. The runs
before the last are not tried again.
-/

namespace Criteria

namespace Pattern

/--
How far a text and a pattern have been scanned, and, once a run has been met, where the last one stands in the
pattern and up to where it takes the text.
-/
structure Scan where
  textIndex : Nat := 0
  partIndex : Nat := 0
  run : Option (Nat × Nat) := none

namespace Scan

inductive Outcome where
  | goOn (scan : Scan)
  | stop (isMatch : Bool)

def meetRun (scan : Scan) : Scan :=
  { scan with partIndex := scan.partIndex + 1, run := some (scan.partIndex, scan.textIndex) }

def advance (scan : Scan) : Scan :=
  { scan with textIndex := scan.textIndex + 1, partIndex := scan.partIndex + 1 }

def goBack (scan : Scan) : Outcome :=
  match scan.run with
  | some (index, reach) => .goOn ⟨reach + 1, index + 1, some (index, reach + 1)⟩
  | none => .stop false

def step? (pattern : Array Part) (text : Array Char) (scan : Scan) : Option Outcome :=
  if scan.textIndex < text.size then
    match pattern[scan.partIndex]? with
    | some .anyRun => some (.goOn scan.meetRun)
    | some part => do
      if part.takes (← text[scan.textIndex]?) then
        return .goOn scan.advance
      else
        return scan.goBack
    | none => some scan.goBack
  else if scan.partIndex ≤ pattern.size then
    some (.stop ((pattern.toList.drop scan.partIndex).all fun part => part = .anyRun))
  else
    none

variable {pattern : Array Part} {text : Array Char} {scan next : Scan}

inductive Step (pattern : Array Part) (text : Array Char) (scan : Scan) : Outcome → Prop where
  | meetRun : scan.textIndex < text.size → pattern[scan.partIndex]? = some .anyRun →
      Step pattern text scan (.goOn scan.meetRun)
  | advance {part : Part} {c : Char} : text[scan.textIndex]? = some c →
      pattern[scan.partIndex]? = some part → part.takes c → Step pattern text scan (.goOn scan.advance)
  | goBack {c : Char} {index reach : Nat} : text[scan.textIndex]? = some c →
      (∀ part, pattern[scan.partIndex]? = some part → part ≠ .anyRun ∧ part.takes c = false) →
      scan.run = some (index, reach) →
      Step pattern text scan (.goOn ⟨reach + 1, index + 1, some (index, reach + 1)⟩)
  | fail {c : Char} : text[scan.textIndex]? = some c →
      (∀ part, pattern[scan.partIndex]? = some part → part ≠ .anyRun ∧ part.takes c = false) →
      scan.run = none → Step pattern text scan (.stop false)
  | finish : text.size ≤ scan.textIndex → scan.partIndex ≤ pattern.size →
      Step pattern text scan
        (.stop ((pattern.toList.drop scan.partIndex).all fun part => part = .anyRun))

theorem step_goBack {c : Char} (hc : text[scan.textIndex]? = some c)
    (h : ∀ part, pattern[scan.partIndex]? = some part → part ≠ .anyRun ∧ part.takes c = false) :
    Step pattern text scan scan.goBack := by
  unfold goBack
  split
  next hrun => exact .goBack hc h hrun
  next hrun => exact .fail hc h hrun

theorem step_of_step? {outcome : Outcome} (h : scan.step? pattern text = some outcome) :
    Step pattern text scan outcome := by
  unfold step? at h
  split at h
  next hlt =>
    have hc : text[scan.textIndex]? = some text[scan.textIndex] := Array.getElem?_eq_getElem hlt
    split at h
    next hpart =>
      cases h
      exact .meetRun hlt hpart
    next part hne hpart =>
      simp only [hc, Option.bind_eq_bind, Option.bind_some] at h
      split at h
      next htakes =>
        cases h
        exact .advance hc hpart htakes
      next htakes =>
        cases h
        apply step_goBack hc
        simp_all
    next hpart =>
      cases h
      apply step_goBack hc
      simp [hpart]
  next hle =>
    split at h
    next hpart =>
      cases h
      exact .finish (by omega) hpart
    next => cases h

structure IsInside (pattern : Array Part) (text : Array Char) (scan : Scan) : Prop where
  textIndex_le : scan.textIndex ≤ text.size
  partIndex_le : scan.partIndex ≤ pattern.size
  run : ∀ index reach, scan.run = some (index, reach) →
    index < scan.partIndex ∧ reach ≤ scan.textIndex

theorem isInside_start (pattern : Array Part) (text : Array Char) : ({} : Scan).IsInside pattern text := by
  constructor <;> simp

theorem lt_size_of_getElem? {α : Type} {buffer : Array α} {i : Nat} {a : α}
    (h : buffer[i]? = some a) : i < buffer.size := by
  rw [Array.getElem?_eq_some_iff] at h
  exact h.1

theorem isInside_of_step (h : scan.IsInside pattern text)
    (hstep : Step pattern text scan (.goOn next)) : next.IsInside pattern text := by
  rcases h with ⟨htext, hpart, hrun⟩
  cases hstep with
  | meetRun _ hpart' =>
    have := lt_size_of_getElem? hpart'
    constructor <;> simp [meetRun] <;> omega
  | advance htext' hpart' _ =>
    have := lt_size_of_getElem? htext'
    have := lt_size_of_getElem? hpart'
    constructor
    · simp [advance]
      omega
    · simp [advance]
      omega
    · intro index reach heq
      have := hrun index reach heq
      simp [advance]
      omega
  | goBack htext' _ hrun' =>
    have := lt_size_of_getElem? htext'
    have := hrun _ _ hrun'
    constructor <;> simp <;> omega

theorem exists_step?_eq_some (h : scan.IsInside pattern text) :
    ∃ outcome, scan.step? pattern text = some outcome := by
  unfold step?
  split
  next hlt =>
    split
    · exact ⟨_, rfl⟩
    · simp only [Array.getElem?_eq_getElem hlt, Option.bind_eq_bind, Option.bind_some]
      split <;> exact ⟨_, rfl⟩
    · exact ⟨_, rfl⟩
  next =>
    rw [if_pos h.partIndex_le]
    exact ⟨_, rfl⟩

/--
A bound for the number of steps that are left. Each run that is met and each character that a run takes costs at
most one pass over the text.
-/
def budget (pattern : Array Part) (text : Array Char) (scan : Scan) : Nat :=
  let passes := match scan.run with
    | some (index, reach) => (pattern.size - index) + (text.size - reach)
    | none => pattern.size + text.size + 1
  passes * (text.size + 1) + (text.size - scan.textIndex)

theorem budget_lt {passes passes' : Nat} (h : passes' < passes) (size index index' : Nat) :
    passes' * (size + 1) + (size - index') < passes * (size + 1) + (size - index) := by
  have := Nat.mul_le_mul_right (size + 1) h
  rw [Nat.succ_mul] at this
  omega

theorem budget_lt_of_step (h : scan.IsInside pattern text)
    (hstep : Step pattern text scan (.goOn next)) :
    next.budget pattern text < scan.budget pattern text := by
  rcases h with ⟨htext, hpart, hrun⟩
  cases hstep with
  | meetRun hlt hpart' =>
    have := lt_size_of_getElem? hpart'
    apply budget_lt
    simp only [meetRun]
    split
    next index reach heq =>
      have := hrun index reach heq
      omega
    next => omega
  | advance htext' _ _ =>
    have := lt_size_of_getElem? htext'
    simp only [budget, advance]
    omega
  | goBack htext' _ hrun' =>
    have := lt_size_of_getElem? htext'
    have := hrun _ _ hrun'
    apply budget_lt
    simp only [hrun']
    omega

def finish (pattern : Array Part) (text : Array Char) (scan : Scan) (h : scan.IsInside pattern text) :
    Bool :=
  match hstep : scan.step? pattern text with
  | some (.goOn next) =>
    finish pattern text next (isInside_of_step h (step_of_step? hstep))
  | some (.stop isMatch) => isMatch
  | none => absurd hstep (by
    rcases exists_step?_eq_some h with ⟨_, heq⟩
    simp [heq])
termination_by scan.budget pattern text
decreasing_by exact budget_lt_of_step h (step_of_step? hstep)

end Scan

def isMatch (pattern : Pattern) (text : List Char) : Bool :=
  Scan.finish pattern.toArray text.toArray {} (Scan.isInside_start _ _)

end Pattern

def isLike (text pattern : String) : Bool :=
  (Pattern.ofText pattern).isMatch text.toList

example : isLike "Children of Dune" "%of_D%" = true := by decide +kernel
example : isLike "abcabc" "%b%c" = true := by decide +kernel
example : isLike "abcab" "%b%c" = false := by decide +kernel
example : isLike "" "%%" = true := by decide +kernel

end Criteria
