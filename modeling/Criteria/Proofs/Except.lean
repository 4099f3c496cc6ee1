import Mathlib.Data.List.Forall2

/-!
This module contains what it takes for a computation that may fail to succeed, step by step.
-/

theorem List.Forall₂.exists_of_mem {α β : Type} {r : α → β → Prop} {as : List α} {bs : List β}
    (h : List.Forall₂ r as bs) {b : β} (hb : b ∈ bs) : ∃ a ∈ as, r a b := by
  induction h with
  | nil => cases hb
  | cons hhead _ ih =>
    cases List.mem_cons.mp hb with
    | inl heq =>
      rw [heq]
      exact ⟨_, List.mem_cons_self, hhead⟩
    | inr hmem =>
      rcases ih hmem with ⟨a, ha, hr⟩
      exact ⟨a, List.mem_cons_of_mem _ ha, hr⟩

namespace Except

variable {ε ε' α β : Type}

theorem pure_eq_ok_iff {a b : α} : (pure a : Except ε α) = .ok b ↔ a = b := by
  simp [pure, Except.pure]

theorem bind_eq_ok_iff {x : Except ε α} {f : α → Except ε β} {b : β} :
    x >>= f = .ok b ↔ ∃ a, x = .ok a ∧ f a = .ok b := by
  cases x <;> simp [bind, Except.bind]

theorem bind_eq_error_iff {x : Except ε α} {f : α → Except ε β} {e : ε} :
    x >>= f = .error e ↔ x = .error e ∨ ∃ a, x = .ok a ∧ f a = .error e := by
  cases x <;> simp [bind, Except.bind]

theorem eq_error_of_bind_eq_error {x : Except ε α} {f : α → Except ε β} {e : ε}
    (h : x >>= f = .error e) (hf : ∀ a, ∃ b, f a = .ok b) : x = .error e := by
  rw [bind_eq_error_iff] at h
  cases h with
  | inl hx => exact hx
  | inr h =>
    rcases h with ⟨a, _, ha⟩
    rcases hf a with ⟨b, hb⟩
    rw [hb] at ha
    cases ha

theorem map_injective {f : α → β} (hf : Function.Injective f) :
    Function.Injective (Except.map f : Except ε α → Except ε β) := by
  intro x y h
  cases x <;> cases y <;> simp only [Except.map, Except.ok.injEq, Except.error.injEq, reduceCtorEq] at h
  · rw [h]
  · rw [hf h]

theorem mapError_eq_ok_iff {x : Except ε α} {f : ε → ε'} {a : α} :
    x.mapError f = .ok a ↔ x = .ok a := by
  constructor
  · intro h
    cases x with
    | error e => cases h
    | ok b =>
      cases h
      rfl
  · intro h
    rw [h]
    rfl

theorem mapError_eq_error_iff {x : Except ε α} {f : ε → ε'} {e : ε'} :
    x.mapError f = .error e ↔ ∃ cause, x = .error cause ∧ f cause = e := by
  cases x <;> simp [Except.mapError]

theorem forM_eq_ok_iff {f : α → Except ε Unit} {as : List α} :
    as.forM f = .ok () ↔ ∀ a ∈ as, f a = .ok () := by
  induction as with
  | nil => exact iff_of_true rfl (by simp)
  | cons a as ih =>
    rw [List.forM, bind_eq_ok_iff, List.forall_mem_cons]
    simp only [ih]
    constructor
    · intro h
      rcases h with ⟨_, ha, has⟩
      exact ⟨ha, has⟩
    · intro h
      rcases h with ⟨ha, has⟩
      exact ⟨(), ha, has⟩

theorem mapM_congr {f g : α → Except ε β} {as : List α} (h : ∀ a ∈ as, f a = g a) :
    as.mapM f = as.mapM g := by
  induction as with
  | nil => rfl
  | cons a as ih =>
    rw [List.forall_mem_cons] at h
    rw [List.mapM_cons, List.mapM_cons, h.1, ih h.2]

theorem mapM_eq_ok_iff {f : α → Except ε β} {as : List α} {bs : List β} :
    as.mapM f = .ok bs ↔ List.Forall₂ (fun a b => f a = .ok b) as bs := by
  induction as generalizing bs with
  | nil =>
    rw [List.mapM_nil, pure_eq_ok_iff, List.forall₂_nil_left_iff]
    exact eq_comm
  | cons a as ih =>
    rw [List.mapM_cons, bind_eq_ok_iff, List.forall₂_cons_left_iff]
    simp only [bind_eq_ok_iff, pure_eq_ok_iff, ih]
    constructor
    · intro h
      rcases h with ⟨b, hb, bs, hbs, rfl⟩
      exact ⟨b, bs, hb, hbs, rfl⟩
    · intro h
      rcases h with ⟨b, bs, hb, hbs, rfl⟩
      exact ⟨b, hb, bs, hbs, rfl⟩

theorem mapM_eq_ok_iff_of_mem {f : α → Except ε β} {as : List α} {bs : List β}
    {r : α → β → Prop} (h : ∀ a ∈ as, ∀ b, f a = .ok b ↔ r a b) :
    as.mapM f = .ok bs ↔ List.Forall₂ r as bs := by
  have hmem : ∀ a ∈ as, a ∈ as := fun _ ha => ha
  rw [mapM_eq_ok_iff]
  constructor
  · intro hbs
    exact ((List.forall₂_and_left as bs).mpr ⟨hmem, hbs⟩).imp fun a b hab => (h a hab.1 b).mp hab.2
  · intro hbs
    exact ((List.forall₂_and_left as bs).mpr ⟨hmem, hbs⟩).imp fun a b hab => (h a hab.1 b).mpr hab.2

theorem mapM_eq_error_iff {f : α → Except ε β} {as : List α} {e : ε} :
    as.mapM f = .error e ↔
      ∃ before a after, as = before ++ a :: after ∧ (∀ b ∈ before, ∃ c, f b = .ok c) ∧
        f a = .error e := by
  induction as with
  | nil => exact iff_of_false (by simp [pure, Except.pure]) (by simp)
  | cons a as ih =>
    rw [List.mapM_cons, bind_eq_error_iff]
    constructor
    · intro h
      rcases h with ha | ⟨c, ha, h⟩
      · exact ⟨[], a, as, rfl, by simp, ha⟩
      · have has := eq_error_of_bind_eq_error h fun bs => ⟨c :: bs, rfl⟩
        rcases ih.mp has with ⟨before, b, after, rfl, hbefore, hb⟩
        refine ⟨a :: before, b, after, rfl, ?_, hb⟩
        rw [List.forall_mem_cons]
        exact ⟨⟨c, ha⟩, hbefore⟩
    · intro h
      rcases h with ⟨before, b, after, heq, hbefore, hb⟩
      cases before with
      | nil =>
        cases heq
        exact .inl hb
      | cons a' before =>
        cases heq
        rw [List.forall_mem_cons] at hbefore
        rcases hbefore with ⟨⟨c, ha⟩, hbefore⟩
        have has := ih.mpr ⟨before, b, after, rfl, hbefore, hb⟩
        rw [has]
        exact .inr ⟨c, ha, rfl⟩

theorem forM_eq_bind_mapM {f : α → Except ε Unit} {as : List α} :
    forM as f = do let _ ← as.mapM f; return () := by
  induction as with
  | nil => rfl
  | cons a as ih =>
    rw [List.forM_cons, ih, List.mapM_cons]
    simp only [bind_assoc, pure_bind]

theorem forM_eq_error_iff {f : α → Except ε Unit} {as : List α} {e : ε} :
    forM as f = .error e ↔
      ∃ before a after, as = before ++ a :: after ∧ (∀ b ∈ before, f b = .ok ()) ∧
        f a = .error e := by
  rw [forM_eq_bind_mapM, bind_eq_error_iff, mapM_eq_error_iff]
  simp [pure, Except.pure, Unique.exists_iff]

end Except

theorem EStateM.run_ofExcept_bind {ε σ α β : Type} (x : Except ε α) (rest : α → EStateM ε σ β)
    (s : σ) :
    (MonadExcept.ofExcept x >>= rest).run s =
      match x with
      | .ok a => (rest a).run s
      | .error e => .error e s := by
  cases x with
  | ok a => simp [MonadExcept.ofExcept]
  | error e => rfl
