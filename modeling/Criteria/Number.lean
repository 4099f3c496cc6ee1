import Criteria.Binary64.Decimal
import Criteria.Binary64.Notation
import Criteria.Text.Blank

/-!
This module contains numeric values. A number is a signed or an unsigned word of 64 bits or a binary64
number. Two integers are compared exactly, and a comparison with a binary64 number is made in binary64.
-/

namespace Criteria

inductive Number where
  | signed (n : Int64)
  | unsigned (n : UInt64)
  | float (x : Binary64)
  deriving DecidableEq

namespace Number

def toInt? : Number → Option Int
  | signed n => some n.toInt
  | unsigned n => some n.toNat
  | float _ => none

def toBinary64 : Number → Binary64
  | signed n => Binary64.ofInt n.toInt
  | unsigned n => Binary64.ofInt n.toNat
  | float x => x

def compareSigned (m : Int64) (n : UInt64) : Ordering :=
  if 0 ≤ m then Ord.compare m.toUInt64 n else .lt

def compare : Number → Number → Option Ordering
  | signed m, signed n => some (Ord.compare m n)
  | unsigned m, unsigned n => some (Ord.compare m n)
  | signed m, unsigned n => some (compareSigned m n)
  | unsigned m, signed n => some (compareSigned n m).swap
  | a, b => a.toBinary64.compare b.toBinary64

/--
Whether two numbers are of one kind and of one value. This is no equivalence: a NaN is not even the same
as itself.
-/
def same : Number → Number → Bool
  | signed m, signed n => m = n
  | unsigned m, unsigned n => m = n
  | float x, float y => x.compare y = some .eq
  | _, _ => false

/--
Read a number between blanks: a signed word if it is one, else an unsigned word, else a finite binary64
number.
-/
def read? (text : String) : Option Number :=
  let s := Text.trim text.toList
  match Text.int64? s with
  | some n => some (signed n)
  | none =>
    match Text.uint64? s with
    | some n => some (unsigned n)
    | none => ((Binary64.read? s).filter Binary64.isFinite).map float

def toText : Number → String
  | signed n => toString n.toInt
  | unsigned n => toString n.toNat
  | float x => x.toText

theorem compare_int64 (m n : Int64) : Ord.compare m n = Ord.compare m.toInt n.toInt := by
  change compareOfLessAndEq m n = compareOfLessAndEq m.toInt n.toInt
  simp only [compareOfLessAndEq, Int64.lt_iff_toInt_lt, Int64.toInt_inj]

theorem compare_uint64 (m n : UInt64) :
    Ord.compare m n = Ord.compare (m.toNat : Int) (n.toNat : Int) := by
  change compareOfLessAndEq m n = compareOfLessAndEq (m.toNat : Int) (n.toNat : Int)
  simp only [compareOfLessAndEq, UInt64.lt_iff_toNat_lt, Int.ofNat_lt, Int.natCast_inj, UInt64.toNat_inj]

theorem compareSigned_eq (m : Int64) (n : UInt64) :
    compareSigned m n = Ord.compare m.toInt (n.toNat : Int) := by
  unfold compareSigned
  split
  next h =>
    have hm : 0 ≤ m.toInt := Int64.le_iff_toInt_le.mp h
    rw [compare_uint64, Int64.toNat_toUInt64_of_le h, ← Int64.toNat_toInt, Int.toNat_of_nonneg hm]
  next h =>
    rw [Int64.le_iff_toInt_le, Int64.toInt_zero] at h
    rw [eq_comm, Int.compare_eq_lt]
    omega

theorem compare_of_toInt? {a b : Number} {m n : Int} (ha : a.toInt? = some m)
    (hb : b.toInt? = some n) : a.compare b = some (Ord.compare m n) := by
  cases a <;> cases b <;> cases ha <;> cases hb
  next => rw [compare, compare_int64]
  next => rw [compare, compareSigned_eq]
  next => rw [compare, compareSigned_eq, Int.compare_swap]
  next => rw [compare, compare_uint64]

example : compare (signed 5) (float ⟨0x4014000000000000⟩) = some .eq := by decide +kernel
example : compare (signed (-1)) (unsigned 0xFFFFFFFFFFFFFFFF) = some .lt := by decide +kernel
example : read? " +42 " = some (signed 42) := by decide +kernel
example : read? "9223372036854775808" = some (unsigned 9223372036854775808) := by decide +kernel
example : read? "1e400" = none := by decide +kernel

end Number

end Criteria
