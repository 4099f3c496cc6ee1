/-!
This module contains pages, the windows of rows that a query returns.
-/

namespace Criteria

structure Page where
  offset : UInt64 := 0
  limit : Option UInt64 := none
  deriving DecidableEq

namespace Page

def first (limit : UInt64) : Page := ⟨0, some limit⟩

/--
The page of a given number, where pages of one size are counted from 1. The offset stays at the greatest
word where it would exceed it.
-/
def numbered (number size : UInt64) : Page :=
  ⟨UInt64.ofNat (min ((number.toNat - 1) * size.toNat) (UInt64.size - 1)), some size⟩

def apply {α : Type} (page : Page) (rows : List α) : List α :=
  let rest := rows.drop page.offset.toNat
  match page.limit with
  | none => rest
  | some limit => rest.take limit.toNat

theorem toNat_offset_numbered (number size : UInt64) :
    (numbered number size).offset.toNat =
      min ((number.toNat - 1) * size.toNat) (UInt64.size - 1) := by
  rw [numbered, UInt64.toNat_ofNat']
  exact Nat.mod_eq_of_lt (by rw [UInt64.size]; omega)

end Page

end Criteria
