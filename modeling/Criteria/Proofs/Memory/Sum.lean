import Criteria.Proofs.Memory.Aggregation
import Mathlib.Algebra.BigOperators.Group.List.Basic
import Mathlib.Algebra.Ring.Int.Defs

/-!
This module contains the proof that a sum of integers is exact as long as every total on the way is that of a signed
word, and the condition under which this holds for the integers in any order.
-/

namespace Criteria

namespace AggregateFunction

variable {ints others : List Int64}

def total (ints : List Int64) : Int :=
  (ints.map Int64.toInt).sum

def TotalsFit (ints : List Int64) : Prop :=
  ∀ front, front <+: ints → Text.fitsInt64 (total front)

theorem total_cons (n : Int64) (ints : List Int64) : total (n :: ints) = n.toInt + total ints :=
  List.sum_cons

theorem total_append (ints others : List Int64) : total (ints ++ others) = total ints + total others := by
  unfold total
  rw [List.map_append, List.sum_append]

theorem total_eq_of_perm (h : others.Perm ints) : total others = total ints :=
  (h.map Int64.toInt).sum_eq

theorem TotalsFit.total (h : TotalsFit ints) : Text.fitsInt64 (total ints) :=
  h ints (List.prefix_refl ints)

theorem totalsFit_append_singleton {n : Int64} :
    TotalsFit (ints ++ [n]) ↔ TotalsFit ints ∧ Text.fitsInt64 (AggregateFunction.total ints + n.toInt) := by
  have htotal : AggregateFunction.total (ints ++ [n]) = AggregateFunction.total ints + n.toInt := by
    rw [total_append]
    simp [AggregateFunction.total]
  rw [← htotal]
  constructor
  · intro h
    exact ⟨fun front hfront => h front (hfront.trans (List.prefix_append ints [n])), h.total⟩
  · rintro ⟨hints, hall⟩ front hfront
    cases List.prefix_concat_iff.mp hfront with
    | inl heq => rwa [heq]
    | inr hfront => exact hints front hfront

section Sum

theorem sumSigned?_append_singleton (numbers : List Number) (n : Int64) :
    sumSigned? (numbers ++ [.signed n]) = (sumSigned? numbers).bind fun sum =>
      if Text.fitsInt64 (sum.toInt + n.toInt) then some (Int64.ofInt (sum.toInt + n.toInt)) else none := by
  unfold sumSigned?
  rw [List.foldlM_append]
  congr 1
  funext sum
  exact bind_pure _

theorem sumSigned?_eq_some_iff {sum : Int64} :
    sumSigned? (ints.map .signed) = some sum ↔ TotalsFit ints ∧ sum.toInt = total ints := by
  induction ints using List.reverseRecOn generalizing sum with
  | nil =>
    have hfit : TotalsFit [] := by
      intro front hfront
      rw [List.prefix_nil.mp hfront]
      rfl
    have hzero : sumSigned? [] = some 0 := rfl
    rw [List.map_nil, and_iff_right hfit, hzero, Option.some.injEq, ← Int64.toInt_inj, eq_comm]
    rfl
  | append_singleton ints n ih =>
    rw [List.map_append, List.map_singleton, sumSigned?_append_singleton, Option.bind_eq_some_iff,
      totalsFit_append_singleton, total_append]
    simp only [ih, Option.ite_none_right_eq_some, Option.some.injEq]
    constructor
    · rintro ⟨start, ⟨hints, hstart⟩, hfit, rfl⟩
      rw [Text.int64_toInt_ofInt hfit, hstart]
      rw [hstart] at hfit
      exact ⟨⟨hints, hfit⟩, by simp [total]⟩
    · rintro ⟨⟨hints, hfit⟩, hsum⟩
      have hstart := Text.int64_toInt_ofInt hints.total
      refine ⟨Int64.ofInt (total ints), ⟨hints, hstart⟩, ?_, ?_⟩
      · rwa [hstart]
      · rw [hstart, ← Int64.toInt_inj, Text.int64_toInt_ofInt hfit, hsum]
        simp [total]

theorem exists_sumSigned?_eq_some (h : TotalsFit ints) :
    ∃ sum : Int64, sum.toInt = total ints ∧ sumSigned? (ints.map .signed) = some sum := by
  have hsum := Text.int64_toInt_ofInt h.total
  exact ⟨_, hsum, sumSigned?_eq_some_iff.mpr ⟨h, hsum⟩⟩

theorem sumSigned?_eq_none (h : ¬TotalsFit ints) : sumSigned? (ints.map .signed) = none := by
  rw [Option.eq_none_iff_forall_ne_some]
  intro sum hsum
  exact h (sumSigned?_eq_some_iff.mp hsum).1

theorem numbers_map_signed (ints : List Int64) :
    numbers (ints.map fun n => .number (.signed n)) = ints.map .signed := by
  unfold numbers
  rw [List.filterMap_map]
  exact congrFun (List.filterMap_eq_map (f := Number.signed)) ints

theorem sumOf?_of_ne_nil {values : List Value} (h : numbers values ≠ []) :
    sumOf? values =
      match sumSigned? (numbers values) with
      | some total => some (.signed total)
      | none => some (.float (Binary64.sum ((numbers values).map Number.toBinary64))) := by
  unfold sumOf?
  split
  next hnil => exact absurd hnil h
  next => rfl

theorem numbers_map_signed_ne_nil (h : ints ≠ []) :
    numbers (ints.map fun n => .number (.signed n)) ≠ [] := by
  rw [numbers_map_signed]
  simpa using h

theorem exists_compute_sum_eq_signed (hne : ints ≠ []) (h : TotalsFit ints) :
    ∃ sum : Int64, sum.toInt = total ints ∧
      compute .sum (ints.map fun n => .number (.signed n)) = some (.number (.signed sum)) := by
  rcases exists_sumSigned?_eq_some h with ⟨sum, htotal, hsum⟩
  refine ⟨sum, htotal, ?_⟩
  unfold compute
  rw [sumOf?_of_ne_nil (numbers_map_signed_ne_nil hne), numbers_map_signed, hsum]
  rfl

theorem compute_sum_eq_float (hne : ints ≠ []) (h : ¬TotalsFit ints) :
    compute .sum (ints.map fun n => .number (.signed n)) =
      some (.number (.float (Binary64.sum (ints.map fun n => (Number.signed n).toBinary64)))) := by
  unfold compute
  rw [sumOf?_of_ne_nil (numbers_map_signed_ne_nil hne), numbers_map_signed, sumSigned?_eq_none h]
  simp [Function.comp_def]

theorem compute_sum_eq_of_perm (h : others.Perm ints) (hints : TotalsFit ints) (hothers : TotalsFit others) :
    compute .sum (others.map fun n => .number (.signed n)) =
      compute .sum (ints.map fun n => .number (.signed n)) := by
  by_cases hne : ints = []
  · rw [hne] at h
    rw [hne, h.eq_nil]
  · have hne' : others ≠ [] := by
      rintro rfl
      exact hne h.nil_eq.symm
    rcases exists_compute_sum_eq_signed hne hints with ⟨a, ha, hleft⟩
    rcases exists_compute_sum_eq_signed hne' hothers with ⟨b, hb, hright⟩
    rw [← total_eq_of_perm h, ← hb, Int64.toInt_inj] at ha
    rw [hleft, hright, ha]

end Sum

section Permutation

def gains (ints : List Int64) : Int :=
  total (ints.filter fun n => 0 < n.toInt)

def losses (ints : List Int64) : Int :=
  total (ints.filter fun n => n.toInt < 0)

theorem gains_cons (n : Int64) (ints : List Int64) :
    gains (n :: ints) = (if 0 < n.toInt then n.toInt else 0) + gains ints := by
  unfold gains
  rw [List.filter_cons]
  by_cases hpositive : 0 < n.toInt
  · simp [hpositive, total_cons]
  · simp [hpositive]

theorem losses_cons (n : Int64) (ints : List Int64) :
    losses (n :: ints) = (if n.toInt < 0 then n.toInt else 0) + losses ints := by
  unfold losses
  rw [List.filter_cons]
  by_cases hnegative : n.toInt < 0
  · simp [hnegative, total_cons]
  · simp [hnegative]

theorem losses_le_and_le_gains {front : List Int64} (h : front <+: ints) :
    losses ints ≤ total front ∧ total front ≤ gains ints := by
  induction ints generalizing front with
  | nil =>
    rw [List.prefix_nil.mp h]
    exact ⟨Int.le_refl 0, Int.le_refl 0⟩
  | cons n ints ih =>
    rw [gains_cons, losses_cons]
    cases List.prefix_cons_iff.mp h with
    | inl hnil =>
      have hrest := ih List.nil_prefix
      rw [hnil]
      split <;> split <;> omega
    | inr hcons =>
      rcases hcons with ⟨rest, rfl, hprefix⟩
      have hrest := ih hprefix
      rw [total_cons]
      split <;> split <;> omega

theorem totalsFit_of_perm (h : others.Perm ints) (hgains : Text.fitsInt64 (gains ints))
    (hlosses : Text.fitsInt64 (losses ints)) : TotalsFit others := by
  have heqGains : gains others = gains ints := total_eq_of_perm (h.filter _)
  have heqLosses : losses others = losses ints := total_eq_of_perm (h.filter _)
  intro front hfront
  have hbetween := losses_le_and_le_gains hfront
  rw [heqGains, heqLosses] at hbetween
  simp only [Text.fitsInt64, Bool.and_eq_true, decide_eq_true_eq] at *
  omega

theorem forall_perm_totalsFit_iff :
    (∀ others : List Int64, others.Perm ints → TotalsFit others) ↔
      Text.fitsInt64 (gains ints) ∧ Text.fitsInt64 (losses ints) := by
  constructor
  · intro h
    exact ⟨h _ (List.filter_append_perm _ ints) _ (List.prefix_append _ _),
      h _ (List.filter_append_perm _ ints) _ (List.prefix_append _ _)⟩
  · rintro ⟨hgains, hlosses⟩ others hothers
    exact totalsFit_of_perm hothers hgains hlosses

end Permutation

end AggregateFunction

namespace Aggregate

open AggregateFunction

variable {R : Type}

theorem rows_sum {field : Field R} {records : List R} {value : R → Option Int64} (order : Option Direction)
    (hread : ∀ record ∈ records, field.read record = (value record).map fun n => .number (.signed n)) :
    ({ function := .sum, field, order } : Aggregate R).rows records =
      [{ function := .sum
         field := field.name
         group := []
         value := compute .sum ((records.filterMap value).map fun n => .number (.signed n)) }] := by
  rw [rows_of_isEmpty rfl, List.map_filterMap]
  congr 2
  apply congrArg
  apply List.filterMap_congr
  exact hread

/--
The sum of integers is exact if all totals on the way are those of signed words, and it is a binary64 number otherwise.
It is the same for all orders of the records in which it is exact. That is every order exactly if the positive integers
have a sum that is that of a signed word, and the negative ones as well.
-/
theorem rows_sum_eq_signed (field : Field R) (order : Option Direction) (records : List R)
    (value : R → Option Int64)
    (hread : ∀ record ∈ records, field.read record = (value record).map fun n => .number (.signed n))
    (hne : records.filterMap value ≠ []) :
    let aggregate : Aggregate R := { function := .sum, field, order }
    let ints := records.filterMap value
    (TotalsFit ints → ∃ sum : Int64, sum.toInt = total ints ∧
      (aggregate.rows records).map Row.value = [some (.number (.signed sum))]) ∧
    (¬TotalsFit ints → (aggregate.rows records).map Row.value =
      [some (.number (.float (Binary64.sum (ints.map fun n => (Number.signed n).toBinary64))))]) ∧
    (∀ others : List R, others.Perm records → TotalsFit ints → TotalsFit (others.filterMap value) →
      aggregate.rows others = aggregate.rows records) ∧
    ((∀ others : List Int64, others.Perm ints → TotalsFit others) ↔
      Text.fitsInt64 (gains ints) ∧ Text.fitsInt64 (losses ints)) := by
  intro aggregate ints
  have hrows : aggregate.rows records = _ := rows_sum order hread
  refine ⟨?_, ?_, ?_, forall_perm_totalsFit_iff⟩
  · intro hfit
    rcases exists_compute_sum_eq_signed hne hfit with ⟨sum, htotal, hsum⟩
    refine ⟨sum, htotal, ?_⟩
    rw [hrows, List.map_singleton, hsum]
  · intro hfit
    rw [hrows, List.map_singleton, compute_sum_eq_float hne hfit]
  · intro others hperm hfit hfit'
    have hothers : aggregate.rows others = _ :=
      rows_sum order fun record hrecord => hread record (hperm.mem_iff.mp hrecord)
    rw [hothers, hrows, compute_sum_eq_of_perm (hperm.filterMap value) hfit hfit']

theorem rows_sum_eq_signed_cells :
    let field : Field (Option Int64) :=
      { name := "amount", type := .number, read := Option.map fun n => .number (.signed n) }
    let records : List (Option Int64) := [some Int64.maxValue, none, some (-1)]
    let aggregate : Aggregate (Option Int64) := { function := .sum, field, order := none }
    let ints := records.filterMap id
    (∀ record ∈ records, field.read record = (id record).map fun n => .number (.signed n)) ∧
    ints ≠ [] ∧ TotalsFit ints ∧
    (TotalsFit ints → ∃ sum : Int64, sum.toInt = total ints ∧
      (aggregate.rows records).map Row.value = [some (.number (.signed sum))]) ∧
    (¬TotalsFit ints → (aggregate.rows records).map Row.value =
      [some (.number (.float (Binary64.sum (ints.map fun n => (Number.signed n).toBinary64))))]) ∧
    (∀ others : List (Option Int64), others.Perm records → TotalsFit ints →
      TotalsFit (others.filterMap id) → aggregate.rows others = aggregate.rows records) ∧
    ((∀ others : List Int64, others.Perm ints → TotalsFit others) ↔
      Text.fitsInt64 (gains ints) ∧ Text.fitsInt64 (losses ints)) := by
  intro field records aggregate ints
  have hread : ∀ record ∈ records, field.read record = (id record).map fun n => .number (.signed n) := by
    intro record _
    rfl
  have hne : ints ≠ [] := by
    simp [ints, records]
  have hfit : TotalsFit ints := by
    have hsum : sumSigned? (ints.map .signed) = some (Int64.maxValue - 1) := by
      rfl
    exact (sumSigned?_eq_some_iff.mp hsum).1
  exact ⟨hread, hne, hfit, rows_sum_eq_signed field none records id hread hne⟩

/--
The sum of integers need not be exact where the exact sum is that of a signed word, and it depends on their order.
-/
theorem not_forall_rows_sum_eq_signed :
    let field : Field Int64 :=
      { name := "amount", type := .number, read := fun n => some (.number (.signed n)) }
    let aggregate : Aggregate Int64 := { function := .sum, field }
    (¬∀ ints : List Int64, ints ≠ [] → Text.fitsInt64 (total ints) →
      ∃ sum : Int64, sum.toInt = total ints ∧
        (aggregate.rows ints).map Row.value = [some (.number (.signed sum))]) ∧
    ¬∀ ints others : List Int64, ints ≠ [] → Text.fitsInt64 (total ints) → others.Perm ints →
      (aggregate.rows others).map Row.value = (aggregate.rows ints).map Row.value := by
  intro field aggregate
  have hrows : ∀ ints, (aggregate.rows ints).map Row.value =
      [compute .sum (ints.map fun n => .number (.signed n))] := by
    intro ints
    rw [rows_of_isEmpty rfl, List.map_singleton, List.filterMap_eq_map']
  -- Adding one to the greatest word is too much, though the next word takes it away again.
  have hlate : ¬TotalsFit [Int64.maxValue, 1, -1] := by
    intro h
    have hfit := h [Int64.maxValue, 1] ⟨[-1], rfl⟩
    revert hfit
    decide
  have hearly : TotalsFit [Int64.maxValue, -1, 1] := by
    have hsum : sumSigned? ([Int64.maxValue, -1, 1].map .signed) = some Int64.maxValue := by
      rfl
    exact (sumSigned?_eq_some_iff.mp hsum).1
  have hfloat := compute_sum_eq_float (by simp) hlate
  constructor
  · intro h
    rcases h [Int64.maxValue, 1, -1] (by simp) (by decide) with ⟨sum, _, hsum⟩
    rw [hrows, hfloat] at hsum
    cases hsum
  · intro h
    have hsame := h [Int64.maxValue, 1, -1] [Int64.maxValue, -1, 1] (by simp) (by decide) (by decide)
    rcases exists_compute_sum_eq_signed (by simp) hearly with ⟨sum, _, hsigned⟩
    rw [hrows, hrows, hfloat, hsigned] at hsame
    cases hsame

end Aggregate

end Criteria
