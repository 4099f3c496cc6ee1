/-!
This module contains formulas, which are trees of conjunctions and disjunctions over atoms. A formula is
the form of a parsed filter, of a condition and of a compiled predicate alike. A group without atoms
places no restriction, and this is also how a disjunction of nothing is understood.
-/

namespace Criteria

inductive Connective where
  | and
  | or
  deriving DecidableEq

def Connective.toText : Connective → String
  | and => "and"
  | or => "or"

inductive Formula (α : Type) where
  | atom (a : α)
  | group (connective : Connective) (children : List (Formula α))

namespace Formula

variable {α β : Type}

@[elab_as_elim, induction_eliminator]
theorem ind {motive : Formula α → Prop} (atom : ∀ a, motive (.atom a))
    (group : ∀ connective children, (∀ child ∈ children, motive child) →
      motive (.group connective children))
    (formula : Formula α) : motive formula :=
  match formula with
  | .atom a => atom a
  | .group connective children => group connective children fun child _ => ind atom group child

mutual

def atoms : Formula α → List α
  | atom a => [a]
  | group _ children => atomsOfAll children

def atomsOfAll : List (Formula α) → List α
  | [] => []
  | child :: children => child.atoms ++ atomsOfAll children

end

mutual

def fold (ofAtom : α → β) (ofGroup : Connective → List β → β) : Formula α → β
  | atom a => ofAtom a
  | group connective children => ofGroup connective (foldAll ofAtom ofGroup children)

def foldAll (ofAtom : α → β) (ofGroup : Connective → List β → β) : List (Formula α) → List β
  | [] => []
  | child :: children => child.fold ofAtom ofGroup :: foldAll ofAtom ofGroup children

end

def map (f : α → β) (formula : Formula α) : Formula β :=
  formula.fold (fun a => .atom (f a)) .group

def isEmpty (formula : Formula α) : Bool :=
  formula.atoms.isEmpty

def size (formula : Formula α) : Nat :=
  formula.atoms.length

mutual

/--
Whether a formula holds if `test` says which of its atoms do. Children without atoms are passed over, and
a group of nothing else holds.
-/
def holds (test : α → Bool) : Formula α → Bool
  | atom a => test a
  | group .and children => allHold test children
  | group .or children => (atomsOfAll children).isEmpty || someRestrictedHolds test children

def allHold (test : α → Bool) : List (Formula α) → Bool
  | [] => true
  | child :: children => child.holds test && allHold test children

def someRestrictedHolds (test : α → Bool) : List (Formula α) → Bool
  | [] => false
  | child :: children =>
    (!child.isEmpty && child.holds test) || someRestrictedHolds test children

end

mutual

def traverse {ε : Type} (f : α → Except ε β) : Formula α → Except ε (Formula β)
  | atom a => do return .atom (← f a)
  | group connective children => do return .group connective (← traverseAll f children)

def traverseAll {ε : Type} (f : α → Except ε β) : List (Formula α) → Except ε (List (Formula β))
  | [] => return []
  | child :: children => do return (← child.traverse f) :: (← traverseAll f children)

end

def join {P : Type} (combine : Connective → List P → P) (connective : Connective) :
    List P → Option P
  | [] => none
  | [predicate] => some predicate
  | predicates => some (combine connective predicates)

mutual

/--
Compile a formula to a predicate, or to none if it places no restriction. The atoms are compiled from left
to right, and if this can fail, the first that fails decides the error.
-/
def compile {m : Type → Type} [Monad m] {P : Type} (comparison : α → m P)
    (combine : Connective → List P → P) : Formula α → m (Option P)
  | atom a => do return some (← comparison a)
  | group connective children => do
    return join combine connective (← compileAll comparison combine children)

def compileAll {m : Type → Type} [Monad m] {P : Type} (comparison : α → m P)
    (combine : Connective → List P → P) : List (Formula α) → m (List P)
  | [] => return []
  | child :: children => do
    match ← child.compile comparison combine with
    | none => compileAll comparison combine children
    | some predicate => return predicate :: (← compileAll comparison combine children)

end

mutual

def decEq [DecidableEq α] : (f g : Formula α) → Decidable (f = g)
  | atom a, atom b => decidable_of_iff (a = b) (by simp)
  | group j as, group k bs =>
    match decEqAll as bs with
    | isTrue h => decidable_of_iff (j = k) (by simp [h])
    | isFalse h => isFalse (by simp [h])
  | atom _, group _ _ => isFalse (by simp)
  | group _ _, atom _ => isFalse (by simp)

def decEqAll [DecidableEq α] : (fs gs : List (Formula α)) → Decidable (fs = gs)
  | [], [] => isTrue rfl
  | f :: fs, g :: gs =>
    match decEq f g, decEqAll fs gs with
    | isTrue h, isTrue h' => isTrue (by rw [h, h'])
    | isFalse h, _ => isFalse (by simp [h])
    | _, isFalse h => isFalse (by simp [h])
  | [], _ :: _ => isFalse (by simp)
  | _ :: _, [] => isFalse (by simp)

end

instance [DecidableEq α] : DecidableEq (Formula α) := decEq

mutual

def isEqv (same : α → α → Bool) : Formula α → Formula α → Bool
  | atom a, atom b => same a b
  | group j as, group k bs => j = k && areEqv same as bs
  | _, _ => false

def areEqv (same : α → α → Bool) : List (Formula α) → List (Formula α) → Bool
  | [], [] => true
  | a :: as, b :: bs => a.isEqv same b && areEqv same as bs
  | _, _ => false

end

theorem atomsOfAll_eq (children : List (Formula α)) :
    atomsOfAll children = children.flatMap atoms := by
  induction children with
  | nil => rfl
  | cons child children ih => rw [atomsOfAll, ih, List.flatMap_cons]

@[simp]
theorem atoms_atom (a : α) : (atom a).atoms = [a] := by rw [atoms]

@[simp]
theorem atoms_group (connective : Connective) (children : List (Formula α)) :
    (group connective children).atoms = children.flatMap atoms := by
  rw [atoms, atomsOfAll_eq]

theorem forall_mem_atoms_group_iff {p : α → Prop} {connective : Connective}
    {children : List (Formula α)} :
    (∀ a ∈ (group connective children).atoms, p a) ↔ ∀ child ∈ children, ∀ a ∈ child.atoms, p a := by
  rw [atoms_group]
  constructor
  · intro h child hchild a ha
    exact h a (List.mem_flatMap_of_mem hchild ha)
  · intro h a ha
    rcases List.mem_flatMap.mp ha with ⟨child, hchild, ha⟩
    exact h child hchild a ha

@[simp]
theorem isEmpty_atom (a : α) : (atom a).isEmpty = false := by simp [isEmpty]

@[simp]
theorem isEmpty_group (connective : Connective) (children : List (Formula α)) :
    (group connective children).isEmpty = children.all isEmpty := by
  rw [isEmpty, atoms_group]
  induction children with
  | nil => rfl
  | cons child children ih =>
    rw [List.flatMap_cons, List.all_cons, ← ih, isEmpty]
    cases child.atoms <;> simp

theorem size_group (connective : Connective) (children : List (Formula α)) :
    (group connective children).size = children.foldr (fun child n => child.size + n) 0 := by
  rw [size, atoms_group]
  induction children with
  | nil => rfl
  | cons child children ih => rw [List.flatMap_cons, List.length_append, ih, List.foldr_cons, size]

theorem foldAll_eq (ofAtom : α → β) (ofGroup : Connective → List β → β)
    (children : List (Formula α)) :
    foldAll ofAtom ofGroup children = children.map (fold ofAtom ofGroup) := by
  induction children with
  | nil => rfl
  | cons child children ih => rw [foldAll, ih, List.map_cons]

@[simp]
theorem fold_atom (ofAtom : α → β) (ofGroup : Connective → List β → β) (a : α) :
    (atom a).fold ofAtom ofGroup = ofAtom a := by rw [fold]

@[simp]
theorem fold_group (ofAtom : α → β) (ofGroup : Connective → List β → β)
    (connective : Connective) (children : List (Formula α)) :
    (group connective children).fold ofAtom ofGroup =
      ofGroup connective (children.map (fold ofAtom ofGroup)) := by
  rw [fold, foldAll_eq]

@[simp]
theorem map_atom (f : α → β) (a : α) : (atom a).map f = atom (f a) := by rw [map, fold_atom]

@[simp]
theorem map_group (f : α → β) (connective : Connective) (children : List (Formula α)) :
    (group connective children).map f = group connective (children.map (map f)) := by
  rw [map, fold_group]
  rfl

theorem map_congr {f g : α → β} {formula : Formula α} (h : ∀ a ∈ formula.atoms, f a = g a) :
    formula.map f = formula.map g := by
  induction formula with
  | atom a =>
    rw [map_atom, map_atom, h a]
    rw [atoms_atom]
    apply List.mem_singleton_self
  | group connective children ih =>
    rw [map_group, map_group]
    congr 1
    apply List.map_congr_left
    intro child hchild
    exact ih child hchild (forall_mem_atoms_group_iff.mp h child hchild)

theorem allHold_eq (test : α → Bool) (children : List (Formula α)) :
    allHold test children = children.all (holds test) := by
  induction children with
  | nil => rfl
  | cons child children ih => rw [allHold, ih, List.all_cons]

theorem someRestrictedHolds_eq (test : α → Bool) (children : List (Formula α)) :
    someRestrictedHolds test children =
      children.any fun child => !child.isEmpty && child.holds test := by
  induction children with
  | nil => rfl
  | cons child children ih => rw [someRestrictedHolds, ih, List.any_cons]

@[simp]
theorem holds_atom (test : α → Bool) (a : α) : (atom a).holds test = test a := by rw [holds]

@[simp]
theorem holds_group_and (test : α → Bool) (children : List (Formula α)) :
    (group .and children).holds test = children.all (holds test) := by
  rw [holds, allHold_eq]

@[simp]
theorem holds_group_or (test : α → Bool) (children : List (Formula α)) :
    (group .or children).holds test =
      (children.all isEmpty || children.any fun child => !child.isEmpty && child.holds test) := by
  rw [holds, someRestrictedHolds_eq, atomsOfAll_eq, ← isEmpty_group .or, isEmpty, atoms_group]

theorem holds_of_isEmpty (test : α → Bool) {formula : Formula α} (h : formula.isEmpty) :
    formula.holds test := by
  induction formula with
  | atom a => simp at h
  | group connective children ih =>
    rw [isEmpty_group, List.all_eq_true] at h
    cases connective with
    | and => rw [holds_group_and, List.all_eq_true]; exact fun c hc => ih c hc (h c hc)
    | or => rw [holds_group_or, List.all_eq_true.2 h, Bool.true_or]

@[simp]
theorem traverse_atom {ε : Type} (f : α → Except ε β) (a : α) :
    (atom a).traverse f = do return .atom (← f a) := by rw [traverse]

theorem traverseAll_eq {ε : Type} (f : α → Except ε β) (children : List (Formula α)) :
    traverseAll f children = children.mapM (traverse f) := by
  induction children with
  | nil => rfl
  | cons child children ih => rw [traverseAll, ih, List.mapM_cons]

@[simp]
theorem traverse_group {ε : Type} (f : α → Except ε β) (connective : Connective)
    (children : List (Formula α)) :
    (group connective children).traverse f =
      do return .group connective (← children.mapM (traverse f)) := by
  rw [traverse, traverseAll_eq]

end Formula

end Criteria
