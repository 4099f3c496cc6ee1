import Criteria.Binary64.Basic

/-!
This module contains rounding to binary64 and the arithmetic that rests on it. There is one rounding,
`nearest`, from an exact quotient of natural numbers. Each operation computes its exact result in
quanta and rounds it once.
-/

namespace Criteria

def roundQuotient (num den : Nat) : Nat :=
  let below := num / den
  let rest := num % den
  if 2 * rest < den then
    below
  else if den < 2 * rest then
    below + 1
  else
    below + below % 2

namespace Binary64

def scaleOfQuotient (num den : Nat) : Nat :=
  (num / den).log2 - 52

/--
The binary64 number nearest to `num / den` quanta, with the even significand of two that are equally
near. Beyond the greatest finite number it is infinite. A significand that is rounded up to `2 ^ 53`
carries into the exponent by itself.
-/
def nearest (negative : Bool) (num den : Nat) : Binary64 :=
  let scale := scaleOfQuotient num den
  let magnitude := scale * leadingOne + roundQuotient num (den <<< scale)
  ofMagnitude negative (min magnitude infiniteMagnitude)

def ofInt (n : Int) : Binary64 :=
  nearest (n < 0) (n.natAbs * quantaPerOne) 1

def add (x y : Binary64) : Binary64 :=
  if x.isNaN || y.isNaN then
    nan
  else if x.isInfinite then
    if y.isInfinite && x.isNegative != y.isNegative then nan else x
  else if y.isInfinite then
    y
  else
    let sum := x.quanta + y.quanta
    let negative := if sum = 0 then x.isNegative && y.isNegative else decide (sum < 0)
    nearest negative sum.natAbs 1

/--
The sum of a list of numbers, taken from the left. The sum of none is negative zero, the neutral
number of addition.
-/
def sum (xs : List Binary64) : Binary64 :=
  xs.foldl add (zero true)

def divideByCount (x : Binary64) (count : Nat) : Binary64 :=
  if x.isFinite then nearest x.isNegative x.absQuanta count else x

example : (ofInt 1).bits = 0x3FF0000000000000 := by decide +kernel
example : (ofInt (-3)).bits = 0xC008000000000000 := by decide +kernel
example : ofInt (2 ^ 53 + 1) = ofInt (2 ^ 53) := by decide +kernel
example : (ofInt (2 ^ 64 - 1)).bits = 0x43F0000000000000 := by decide +kernel
example : add (zero true) (zero false) = zero false := by decide +kernel

end Binary64

end Criteria
