/-!
This module contains the binary64 numbers of IEEE 754 as words of 64 bits, the exact values of the
finite ones, and their comparison. Every finite binary64 number is a whole number of quanta, where a
quantum is the least positive one, so exact values are integers and no rounding is involved.
-/

namespace Criteria

/--
A binary64 number, given by its 64 bits: a sign, eleven bits of exponent and 52 bits of fraction.
-/
structure Binary64 where
  bits : UInt64
  deriving DecidableEq, Inhabited

namespace Binary64

def signBit : Nat := 0x8000000000000000

def leadingOne : Nat := 0x10000000000000

def magnitude (x : Binary64) : Nat :=
  x.bits.toNat % signBit

def isNegative (x : Binary64) : Bool :=
  signBit ≤ x.bits.toNat

/--
The magnitude of the two infinities. All greater magnitudes are those of NaNs.
-/
def infiniteMagnitude : Nat := 0x7FF0000000000000

def isNaN (x : Binary64) : Bool :=
  infiniteMagnitude < x.magnitude

def isInfinite (x : Binary64) : Bool :=
  x.magnitude = infiniteMagnitude

def isFinite (x : Binary64) : Bool :=
  x.magnitude < infiniteMagnitude

def ofMagnitude (negative : Bool) (magnitude : Nat) : Binary64 :=
  ⟨UInt64.ofNat ((if negative then signBit else 0) + magnitude)⟩

def nan : Binary64 := ofMagnitude false 0x7FF8000000000000

def infinity (negative : Bool) : Binary64 := ofMagnitude negative infiniteMagnitude

def zero (negative : Bool) : Binary64 := ofMagnitude negative 0

/--
A finite number is its significand times two to its scale, in quanta.
-/
def scale (x : Binary64) : Nat :=
  x.magnitude / leadingOne - 1

def significand (x : Binary64) : Nat :=
  x.magnitude % leadingOne + if x.magnitude < leadingOne then 0 else leadingOne

def quantaPerOne : Nat := 1 <<< 1074

def absQuanta (x : Binary64) : Nat :=
  x.significand <<< x.scale

def quanta (x : Binary64) : Int :=
  if x.isNegative then -(x.absQuanta : Int) else x.absQuanta

def orderKey (x : Binary64) : Int :=
  if x.isNegative then -(x.magnitude : Int) else x.magnitude

def compare (x y : Binary64) : Option Ordering :=
  if x.isNaN || y.isNaN then none else some (Ord.compare x.orderKey y.orderKey)

theorem compare_eq_some {x y : Binary64} (hx : x.isNaN = false) (hy : y.isNaN = false) :
    x.compare y = some (Ord.compare x.orderKey y.orderKey) := by
  simp [compare, hx, hy]

theorem magnitude_ofMagnitude {negative : Bool} {m : Nat} (h : m < signBit) :
    (ofMagnitude negative m).magnitude = m := by
  unfold signBit at h
  unfold magnitude ofMagnitude signBit
  rw [UInt64.toNat_ofNat']
  cases negative <;> simp only [if_true, if_false, Bool.false_eq_true] <;> omega

theorem isNegative_ofMagnitude {negative : Bool} {m : Nat} (h : m < signBit) :
    (ofMagnitude negative m).isNegative = negative := by
  unfold signBit at h
  unfold isNegative ofMagnitude signBit
  rw [UInt64.toNat_ofNat']
  cases negative
  · exact decide_eq_false (by simp only [Bool.false_eq_true, if_false]; omega)
  · exact decide_eq_true (by simp only [if_true]; omega)

end Binary64

end Criteria
