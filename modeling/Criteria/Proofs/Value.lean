import Criteria.Proofs.Number
import Criteria.Proofs.Sort.Stable
import Criteria.Sort.Order

/-!
This module contains the proof that the values of a field are in order as long as they are of one type and do not mix
integers with binary64 numbers. Missing values come last in either direction.
-/

namespace Criteria

namespace Value

variable {values : List Value}

/--
What values have in common that their comparison puts in order: they are of one type, and if they are numbers, either
all are integers or all are binary64 numbers other than NaNs.
-/
structure AreAlike (values : List Value) : Prop where
  type_eq : ∀ a ∈ values, ∀ b ∈ values, a.type = b.type
  numbers : (∀ n, .number n ∈ values → ∃ m, n.toInt? = some m) ∨
    ∀ n, .number n ∈ values → n.toInt? = none ∧ n.isNaN = false

theorem AreAlike.mono {others : List Value} (h : AreAlike values) (hsubset : others ⊆ values) :
    AreAlike others where
  type_eq a ha b hb := h.type_eq a (hsubset ha) b (hsubset hb)
  numbers := h.numbers.imp (fun hinteger n hn => hinteger n (hsubset hn))
    fun hfloat n hn => hfloat n (hsubset hn)

def HaveKeys (values : List Value) : Prop :=
  ∃ (κ : Type) (_ : Ord κ) (_ : Std.TransOrd κ) (key : Value → κ),
    ∀ a ∈ values, ∀ b ∈ values, a.compare b = some (Ord.compare (key a) (key b))

theorem exists_eq_of_type_eq {a : Value} {type : ValueType} (h : a.type = type) :
    match type with
    | .string => ∃ text, a = .string text
    | .number => ∃ n, a = .number n
    | .timestamp => ∃ t, a = .timestamp t
    | .enum => ∃ d, a = .enum d
    | .bool => ∃ b, a = .bool b := by
  cases h
  cases a with
  | string text => exact ⟨text, rfl⟩
  | number n => exact ⟨n, rfl⟩
  | timestamp t => exact ⟨t, rfl⟩
  | enum d => exact ⟨d, rfl⟩
  | bool b => exact ⟨b, rfl⟩

theorem haveKeys_of_type_number (h : ∀ a ∈ values, a.type = .number)
    (hnumbers : (∀ n, .number n ∈ values → ∃ m, n.toInt? = some m) ∨
      ∀ n, .number n ∈ values → n.toInt? = none ∧ n.isNaN = false) : HaveKeys values := by
  cases hnumbers with
  | inl hinteger =>
    refine ⟨Int, inferInstance, inferInstance, fun a => (a.number?.bind Number.toInt?).getD 0, ?_⟩
    intro a ha b hb
    rcases exists_eq_of_type_eq (h a ha) with ⟨x, rfl⟩
    rcases exists_eq_of_type_eq (h b hb) with ⟨y, rfl⟩
    rcases hinteger x ha with ⟨m, hm⟩
    rcases hinteger y hb with ⟨n, hn⟩
    simp [compare, number?, Number.compare_of_toInt? hm hn, hm, hn]
  | inr hfloat =>
    refine ⟨Int, inferInstance, inferInstance, fun a => (a.number?.map Number.orderKey).getD 0, ?_⟩
    intro a ha b hb
    rcases exists_eq_of_type_eq (h a ha) with ⟨x, rfl⟩
    rcases exists_eq_of_type_eq (h b hb) with ⟨y, rfl⟩
    rcases hfloat x ha with ⟨hx, hnan⟩
    exact Number.compare_of_toInt?_eq_none hnan (hfloat y hb).2 (.inl hx)

def rank : Value → Int
  | string _ => 0
  | number _ => 0
  | timestamp t => t.millis.toInt
  | enum d => d.toNat
  | bool b => b.toNat

theorem compare_natCast (m n : Nat) : Ord.compare (m : Int) (n : Int) = Ord.compare m n := by
  rw [Int.compare_eq_ite_le, Nat.compare_eq_ite_le]
  simp only [Int.ofNat_le]

theorem haveKeys_of_rank
    (h : ∀ a ∈ values, ∀ b ∈ values, a.compare b = some (Ord.compare a.rank b.rank)) :
    HaveKeys values :=
  ⟨Int, inferInstance, inferInstance, rank, h⟩

theorem haveKeys_of_type {type : ValueType} (htype : type ≠ .number) (h : ∀ a ∈ values, a.type = type) :
    HaveKeys values := by
  cases type with
  | number => exact absurd rfl htype
  | string =>
    refine ⟨String, inferInstance, inferInstance, fun a => a.text?.getD "", ?_⟩
    intro a ha b hb
    rcases exists_eq_of_type_eq (h a ha) with ⟨x, rfl⟩
    rcases exists_eq_of_type_eq (h b hb) with ⟨y, rfl⟩
    rfl
  | timestamp =>
    apply haveKeys_of_rank
    intro a ha b hb
    rcases exists_eq_of_type_eq (h a ha) with ⟨x, rfl⟩
    rcases exists_eq_of_type_eq (h b hb) with ⟨y, rfl⟩
    rfl
  | enum =>
    apply haveKeys_of_rank
    intro a ha b hb
    rcases exists_eq_of_type_eq (h a ha) with ⟨x, rfl⟩
    rcases exists_eq_of_type_eq (h b hb) with ⟨y, rfl⟩
    rw [rank, rank, compare_natCast]
    rfl
  | bool =>
    apply haveKeys_of_rank
    intro a ha b hb
    rcases exists_eq_of_type_eq (h a ha) with ⟨x, rfl⟩
    rcases exists_eq_of_type_eq (h b hb) with ⟨y, rfl⟩
    cases x <;> cases y <;> rfl

theorem AreAlike.haveKeys (h : AreAlike values) : HaveKeys values := by
  cases values with
  | nil => exact ⟨Nat, inferInstance, inferInstance, fun _ => 0, List.forall_mem_nil _⟩
  | cons first values =>
    have hall : ∀ a ∈ first :: values, a.type = first.type :=
      fun a ha => h.type_eq a ha first List.mem_cons_self
    by_cases htype : first.type = .number
    · rw [htype] at hall
      exact haveKeys_of_type_number hall h.numbers
    · exact haveKeys_of_type htype hall

theorem AreAlike.exists_compare_eq_some (h : AreAlike values) {a b : Value} (ha : a ∈ values)
    (hb : b ∈ values) : ∃ o, a.compare b = some o := by
  rcases h.haveKeys with ⟨_, _, _, _, hkeys⟩
  exact ⟨_, hkeys a ha b hb⟩

theorem AreAlike.orders (h : AreAlike values) :
    Orders (fun a b => (a.compare b).getD .eq) values := by
  rcases h.haveKeys with ⟨_, _, _, key, hkeys⟩
  apply Orders.of_key key
  intro a ha b hb
  rw [hkeys a ha b hb, Option.getD_some]

section Same

variable {a b c : Value}

def isNaN : Value → Bool
  | number n => n.isNaN
  | _ => false

theorem same_self (h : a.isNaN = false) : a.same a := by
  cases a with
  | number n => exact Number.same_self h
  | _ => exact decide_eq_true rfl

theorem same_comm (a b : Value) : a.same b = b.same a := by
  cases a with
  | number m =>
    cases b with
    | number n => exact Number.same_comm m n
    | _ => rfl
  | _ => cases b <;> simp [same, eq_comm]

theorem same_trans (hab : a.same b) (hbc : b.same c) : a.same c := by
  cases a with
  | number m =>
    cases b with
    | number n =>
      cases c with
      | number k => exact Number.same_trans hab hbc
      | _ => cases hbc
    | _ => cases hab
  | _ => cases b <;> cases c <;> simp_all [same]

end Same

end Value

namespace Direction

variable {direction : Direction} {cells : List (Option Value)}

theorem compareValues_some (direction : Direction) (a b : Value) :
    direction.compareValues (some a) (some b) = direction.apply ((a.compare b).getD .eq) := by
  unfold compareValues
  dsimp only
  cases a.compare b with
  | none => cases direction <;> rfl
  | some o => rfl

theorem eq_none_of_isLE_compareValues {a b : Option Value} (h : (direction.compareValues a b).isLE)
    (ha : a = none) : b = none := by
  rw [ha] at h
  cases b with
  | none => rfl
  | some b => cases h

theorem orders_apply {values : List Value} (h : Value.AreAlike values) (direction : Direction) :
    Orders (fun a b => direction.apply ((a.compare b).getD .eq)) values := by
  cases direction with
  | ascending => exact h.orders
  | descending => exact h.orders.swapped

theorem orders_compareValues (h : Value.AreAlike (cells.filterMap id)) (direction : Direction) :
    Orders direction.compareValues cells := by
  have horders := orders_apply h direction
  have hmem : ∀ a : Value, some a ∈ cells → a ∈ cells.filterMap id := by
    intro a ha
    rw [List.mem_filterMap]
    exact ⟨some a, ha, rfl⟩
  constructor
  · intro a ha b hb
    cases a with
    | none => cases b <;> rfl
    | some a =>
      cases b with
      | none => rfl
      | some b =>
        rw [compareValues_some, compareValues_some]
        exact horders.swap a (hmem a ha) b (hmem b hb)
  · intro a ha b hb c hc hab hbc
    cases c with
    | none => cases a <;> rfl
    | some c =>
      cases b with
      | none => cases hbc
      | some b =>
        cases a with
        | none => cases hab
        | some a =>
          rw [compareValues_some] at hab hbc ⊢
          exact horders.trans a (hmem a ha) b (hmem b hb) c (hmem c hc) hab hbc

end Direction

end Criteria
