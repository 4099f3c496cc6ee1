import Criteria.Proofs.Registry
import Criteria.Proofs.Text.Trim
import Criteria.Sort.Order

/-!
This module contains the proof that lists of sort keys are read as they are written. Each of the pieces between commas is a
key with or without a sign, and the first piece that is none decides the error.
-/

namespace Criteria

variable {R : Type} {registry : Registry R} {input : String} {text : List Char} {e : Error}

def Direction.sign : Direction → Char
  | ascending => '+'
  | descending => '-'

theorem Direction.isBlank_sign (direction : Direction) : Text.isBlank direction.sign = false := by
  cases direction <;> decide

namespace SortKey

def IsSigned (name : String) (direction : Direction) (text : List Char) : Prop :=
  ∃ before between after, text = before ++ direction.sign :: (between ++ name.toList ++ after) ∧
    Text.IsBlanks before ∧ Text.IsBlanks between ∧ Text.IsBlanks after

/--
How a name is written as a sort key of a direction. An ascending key needs no sign, unless there is no name or the name
starts with a sign.
-/
inductive IsWritten (name : String) : Direction → List Char → Prop where
  | signed {direction : Direction} {text : List Char} : IsSigned name direction text →
      IsWritten name direction text
  | unsigned {text before after : List Char} : text = before ++ name.toList ++ after →
      Text.IsBlanks before → Text.IsBlanks after → name ≠ "" →
      (∀ direction : Direction, name.toList.head? ≠ some direction.sign) →
      IsWritten name .ascending text

structure IsSaidBy (registry : Registry R) (key : SortKey R) (text : List Char) : Prop where
  registered : key.field ∈ registry.fields
  trimmed : Text.IsTrimmed key.field.name.toList
  written : IsWritten key.field.name key.direction text

/--
What a text fails with that says no key: that it is blank, else that no field has the name.
-/
inductive Fails (registry : Registry R) (input : String) (text : List Char) : Error → Prop where
  | blank : Text.IsBlanks text → Fails registry input text (.emptySortKey input)
  | unknown {name : String} {direction : Direction} : Text.IsTrimmed name.toList →
      IsWritten name direction text → registry.contains name = false →
      Fails registry input text (.unknownField name)

theorem read_of_isBlanks (h : Text.IsBlanks text) :
    read registry input text = .error (.emptySortKey input) := by
  unfold read
  rw [Text.trim_eq_nil_iff.mpr h]

theorem read_of_trim_eq_sign {direction : Direction} {rest : List Char}
    (h : Text.trim text = direction.sign :: rest) :
    read registry input text = do
      return ⟨← registry.lookup (String.ofList (Text.trim rest)), direction⟩ := by
  unfold read
  rw [h]
  cases direction <;> rfl

theorem read_of_head?_ne_sign (hne : Text.trim text ≠ [])
    (h : ∀ direction : Direction, (Text.trim text).head? ≠ some direction.sign) :
    read registry input text = do
      return ⟨← registry.lookup (String.ofList (Text.trim text)), .ascending⟩ := by
  unfold read
  split
  next hnil => exact absurd hnil hne
  next hminus =>
    rw [hminus] at h
    exact absurd rfl (h .descending)
  next hplus =>
    rw [hplus] at h
    exact absurd rfl (h .ascending)
  next =>
    dsimp only
    rw [Text.trim_of_isTrimmed (Text.isTrimmed_trim text)]

theorem exists_isSigned {direction : Direction}
    (h : (Text.trim text).head? = some direction.sign) :
    ∃ name : String, Text.IsTrimmed name.toList ∧ IsSigned name direction text := by
  rcases List.head?_eq_some_iff.mp h with ⟨rest, htrim⟩
  rcases Text.exists_eq_append_trim text with ⟨before, after, htext, hbefore, hafter⟩
  rcases Text.exists_eq_append_trim rest with ⟨between, after', hrest, hbetween, hafter'⟩
  refine ⟨String.ofList (Text.trim rest), ?_, before, between, after' ++ after, ?_, hbefore, hbetween, ?_⟩
  · rw [String.toList_ofList]
    exact Text.isTrimmed_trim rest
  · rw [String.toList_ofList, ← List.append_assoc, ← hrest, ← List.cons_append, ← htrim,
      ← List.append_assoc]
    exact htext
  · exact List.forall_mem_append.mpr ⟨hafter', hafter⟩

theorem isWritten_trim (hne : Text.trim text ≠ [])
    (h : ∀ direction : Direction, (Text.trim text).head? ≠ some direction.sign) :
    IsWritten (String.ofList (Text.trim text)) .ascending text := by
  rcases Text.exists_eq_append_trim text with ⟨before, after, htext, hbefore, hafter⟩
  refine .unsigned ?_ hbefore hafter ?_ ?_
  · rw [String.toList_ofList]
    exact htext
  · simpa using hne
  · rw [String.toList_ofList]
    exact h

theorem isBlanks_or_exists_isWritten (text : List Char) :
    Text.IsBlanks text ∨
      ∃ name direction, Text.IsTrimmed name.toList ∧ IsWritten name direction text := by
  by_cases hnil : Text.trim text = []
  · left
    exact Text.trim_eq_nil_iff.mp hnil
  · right
    by_cases hsign : ∃ direction : Direction, (Text.trim text).head? = some direction.sign
    · rcases hsign with ⟨direction, hhead⟩
      rcases exists_isSigned hhead with ⟨name, hname, hsigned⟩
      exact ⟨name, direction, hname, .signed hsigned⟩
    · refine ⟨String.ofList (Text.trim text), .ascending, ?_, isWritten_trim hnil (not_exists.mp hsign)⟩
      rw [String.toList_ofList]
      exact Text.isTrimmed_trim text

theorem read_of_isWritten {name : String} {direction : Direction}
    (hname : Text.IsTrimmed name.toList) (h : IsWritten name direction text) :
    read registry input text = do return ⟨← registry.lookup name, direction⟩ := by
  cases h with
  | signed h =>
    rcases h with ⟨before, between, after, rfl, hbefore, hbetween, hafter⟩
    have htrim : Text.trim (before ++ direction.sign :: (between ++ name.toList ++ after)) =
        direction.sign :: Text.dropTrailing Text.isBlank (between ++ name.toList ++ after) := by
      rw [Text.trim_blanks_append hbefore, Text.trim_cons_of_not_isBlank direction.isBlank_sign]
    rw [read_of_trim_eq_sign htrim, Text.trim_dropTrailing,
      Text.trim_of_blanks_around hbetween hname hafter, String.ofList_toList]
  | unsigned htext hbefore hafter hne hhead =>
    have htrim : Text.trim text = name.toList := by
      rw [htext]
      exact Text.trim_of_blanks_around hbefore hname hafter
    rw [read_of_head?_ne_sign, htrim, String.ofList_toList]
    · rw [htrim]
      simpa using hne
    · rw [htrim]
      exact hhead

theorem read_eq_ok_iff {key : SortKey R} :
    read registry input text = .ok key ↔ key.IsSaidBy registry text := by
  constructor
  · intro h
    rcases isBlanks_or_exists_isWritten text with hblank | ⟨name, direction, hname, hwritten⟩
    · rw [read_of_isBlanks hblank] at h
      cases h
    · rw [read_of_isWritten hname hwritten, Except.bind_eq_ok_iff] at h
      rcases h with ⟨field, hlookup, hkey⟩
      cases hkey
      rcases Registry.lookup_eq_ok_iff.mp hlookup with ⟨hfield, rfl⟩
      exact ⟨hfield, hname, hwritten⟩
  · intro h
    rw [read_of_isWritten h.trimmed h.written, Registry.lookup_of_mem h.registered]
    rfl

theorem read_eq_error_iff :
    read registry input text = .error e ↔ Fails registry input text e := by
  constructor
  · intro h
    rcases isBlanks_or_exists_isWritten text with hblank | ⟨name, direction, hname, hwritten⟩
    · rw [read_of_isBlanks hblank] at h
      cases h
      exact .blank hblank
    · rw [read_of_isWritten hname hwritten] at h
      have hlookup := Except.eq_error_of_bind_eq_error h fun field => ⟨⟨field, direction⟩, rfl⟩
      rcases Registry.lookup_eq_error_iff.mp hlookup with ⟨hcontains, rfl⟩
      exact .unknown hname hwritten hcontains
  · intro h
    cases h with
    | blank hblank => exact read_of_isBlanks hblank
    | unknown hname hwritten hcontains =>
      rw [read_of_isWritten hname hwritten, Registry.lookup_eq_error_iff.mpr ⟨hcontains, rfl⟩]
      rfl

theorem not_mem_of_isBlanks (h : Text.IsBlanks text) : ',' ∉ text := by
  intro hmem
  exact absurd (h ',' hmem) (by decide)

theorem not_mem_of_isSigned {name : String} {direction : Direction} (hname : ',' ∉ name.toList)
    (h : IsSigned name direction text) : ',' ∉ text := by
  rcases h with ⟨before, between, after, rfl, hbefore, hbetween, hafter⟩
  have hsign : ',' ≠ direction.sign := by cases direction <;> decide
  simp [hsign, hname, not_mem_of_isBlanks hbefore, not_mem_of_isBlanks hbetween,
    not_mem_of_isBlanks hafter]

end SortKey

namespace SortOrder

theorem not_mem_of_mem_splitOn {piece : List Char} (h : piece ∈ text.splitOn ',') : ',' ∉ piece := by
  induction text generalizing piece with
  | nil =>
    rw [List.splitOn_nil, List.mem_singleton] at h
    rw [h]
    exact List.not_mem_nil
  | cons c text ih =>
    rw [List.splitOn_cons_eq_if_modifyHead] at h
    rcases List.exists_cons_of_ne_nil (List.splitOn_ne_nil ',' text) with ⟨first, others, hsplit⟩
    rw [hsplit] at h ih
    split at h
    next =>
      cases List.mem_cons.mp h with
      | inl hpiece =>
        rw [hpiece]
        exact List.not_mem_nil
      | inr hpiece => exact ih hpiece
    next hc =>
      rw [List.modifyHead_cons] at h
      cases List.mem_cons.mp h with
      | inl hpiece =>
        rw [hpiece, List.mem_cons, not_or]
        exact ⟨fun heq => hc (beq_iff_eq.mpr heq.symm), ih List.mem_cons_self⟩
      | inr hpiece => exact ih (List.mem_cons_of_mem _ hpiece)

variable {pieces : List String}

structure IsJoined (pieces : List String) (input : String) : Prop where
  ne_nil : pieces ≠ []
  no_comma : ∀ piece ∈ pieces, ',' ∉ piece.toList
  join : input = ",".intercalate pieces

theorem splitOn_of_isJoined (h : IsJoined pieces input) :
    input.toList.splitOn ',' = pieces.map String.toList := by
  rw [h.join, String.toList_intercalate]
  apply List.splitOn_intercalate
  · intro piece hpiece
    rcases List.mem_map.mp hpiece with ⟨text, htext, rfl⟩
    exact h.no_comma text htext
  · simpa using h.ne_nil

theorem exists_isJoined (input : String) : ∃ pieces, IsJoined pieces input := by
  refine ⟨(input.toList.splitOn ',').map String.ofList, ?_, ?_, ?_⟩
  · simp
  · intro piece hpiece
    rcases List.mem_map.mp hpiece with ⟨text, htext, rfl⟩
    rw [String.toList_ofList]
    exact not_mem_of_mem_splitOn htext
  · apply String.toList_injective
    rw [String.toList_intercalate, List.map_map, String.toList_comp_ofList, List.map_id]
    exact (List.intercalate_splitOn ',').symm

theorem read_of_isJoined (h : IsJoined pieces input) :
    read registry input = pieces.mapM fun piece => SortKey.read registry input piece.toList := by
  unfold read
  rw [splitOn_of_isJoined h, List.mapM_map]
  rfl

theorem read_eq_ok_iff (h : IsJoined pieces input) {keys : SortOrder R} :
    read registry input = .ok keys ↔
      List.Forall₂ (fun piece key => key.IsSaidBy registry piece.toList) pieces keys := by
  rw [read_of_isJoined h]
  apply Except.mapM_eq_ok_iff_of_mem
  intro piece _ key
  exact SortKey.read_eq_ok_iff

theorem read_eq_error_iff (h : IsJoined pieces input) :
    read registry input = .error e ↔
      ∃ before piece after, pieces = before ++ piece :: after ∧
        (∀ earlier ∈ before, ∃ key : SortKey R, key.IsSaidBy registry earlier.toList) ∧
        SortKey.Fails registry input piece.toList e := by
  rw [read_of_isJoined h, Except.mapM_eq_error_iff]
  simp only [SortKey.read_eq_ok_iff, SortKey.read_eq_error_iff]

theorem isJoined_of_isSigned {keys : SortOrder R} (hne : keys ≠ [])
    (hnames : ∀ key ∈ keys, ',' ∉ key.field.name.toList)
    (h : List.Forall₂ (fun key piece => SortKey.IsSigned key.field.name key.direction piece.toList)
      keys pieces) : IsJoined pieces (",".intercalate pieces) where
  ne_nil := by
    rintro rfl
    exact hne (List.forall₂_nil_right_iff.mp h)
  no_comma := by
    intro piece hpiece
    rcases h.exists_of_mem hpiece with ⟨key, hkey, hsigned⟩
    exact SortKey.not_mem_of_isSigned (hnames key hkey) hsigned
  join := rfl

/--
Keys that are written with their signs are read back, whatever blanks there are around signs and names. For any text, the keys
are what the pieces between its commas say, one for each of them, if they all say one. Else the first piece that says none
decides the error.
-/
theorem read_intercalate_and_read_iff (registry : Registry R) :
    (∀ (keys : SortOrder R) (pieces : List String), keys ≠ [] →
      (∀ key ∈ keys, key.field ∈ registry.fields ∧ ',' ∉ key.field.name.toList ∧
        Text.IsTrimmed key.field.name.toList) →
      List.Forall₂ (fun key piece => SortKey.IsSigned key.field.name key.direction piece.toList)
        keys pieces →
      read registry (",".intercalate pieces) = .ok keys) ∧
    ∀ input, ∃ pieces, IsJoined pieces input ∧
      (∀ keys, read registry input = .ok keys ↔
        List.Forall₂ (fun piece key => key.IsSaidBy registry piece.toList) pieces keys) ∧
      ∀ e, read registry input = .error e ↔
        ∃ before piece after, pieces = before ++ piece :: after ∧
          (∀ earlier ∈ before, ∃ key : SortKey R, key.IsSaidBy registry earlier.toList) ∧
          SortKey.Fails registry input piece.toList e := by
  constructor
  · intro keys pieces hne hkeys hsigned
    have hjoined := isJoined_of_isSigned hne (fun key hkey => (hkeys key hkey).2.1) hsigned
    rw [read_eq_ok_iff hjoined]
    apply List.Forall₂.flip
    apply ((List.forall₂_and_left keys pieces).mpr ⟨hkeys, hsigned⟩).imp
    intro key piece h
    rcases h with ⟨⟨hfield, _, htrimmed⟩, hsigned⟩
    exact ⟨hfield, htrimmed, .signed hsigned⟩
  · intro input
    rcases exists_isJoined input with ⟨pieces, hjoined⟩
    exact ⟨pieces, hjoined, fun _ => read_eq_ok_iff hjoined, fun _ => read_eq_error_iff hjoined⟩

theorem read_intercalate_and_read_iff_signs :
    let year : Field (Option Value) := { name := "-year", type := .number, read := id }
    let unnamed : Field (Option Value) := { name := "", type := .string, read := id }
    let registry : Registry (Option Value) := ⟨[year, unnamed], by simp [year, unnamed]⟩
    let keys : SortOrder (Option Value) := [⟨year, .descending⟩, ⟨unnamed, .ascending⟩]
    let pieces : List String := [" - -year\t", "+ "]
    keys ≠ [] ∧
      (∀ key ∈ keys, key.field ∈ registry.fields ∧ ',' ∉ key.field.name.toList ∧
        Text.IsTrimmed key.field.name.toList) ∧
      List.Forall₂ (fun key piece => SortKey.IsSigned key.field.name key.direction piece.toList)
        keys pieces ∧
      read registry " - -year\t,+ " = .ok keys := by
  intro year unnamed registry keys pieces
  have hne : keys ≠ [] := List.cons_ne_nil _ _
  have hkeys : ∀ key ∈ keys, key.field ∈ registry.fields ∧ ',' ∉ key.field.name.toList ∧
      Text.IsTrimmed key.field.name.toList := by
    rw [List.forall_mem_cons, List.forall_mem_singleton]
    exact ⟨⟨List.mem_cons_self, by decide, by decide⟩,
      ⟨List.mem_cons_of_mem _ List.mem_cons_self, by decide, by decide⟩⟩
  have hsigned : List.Forall₂
      (fun key piece => SortKey.IsSigned key.field.name key.direction piece.toList) keys pieces :=
    .cons ⟨[' '], [' '], ['\t'], by simp [year, Direction.sign], by decide, by decide, by decide⟩
      (.cons ⟨[], [], [' '], by simp [unnamed, Direction.sign], by decide, by decide, by decide⟩ .nil)
  have hjoin : ",".intercalate pieces = " - -year\t,+ " := by decide
  refine ⟨hne, hkeys, hsigned, ?_⟩
  rw [← hjoin]
  exact (read_intercalate_and_read_iff registry).1 keys pieces hne hkeys hsigned

end SortOrder

end Criteria
