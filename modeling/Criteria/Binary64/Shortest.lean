import Criteria.Binary64.Basic
import Criteria.Text.Numeral

/-!
This module contains the shortest decimal of a binary64 number: of the decimals with the fewest digits
that are read back as the number, the one nearest to it.
-/

namespace Criteria.Binary64

/--
A decimal as its digits and the position of the point: `⟨123, 2⟩` is 0.123 with the point moved two
places to the right, which is 12.3.
-/
structure Decimal where
  digits : Nat
  point : Int
  deriving DecidableEq

/--
The real numbers that are read back as a given finite number, from `low` to `high`, both in quarters of a
quantum. The ends belong to them if the significand is even.
-/
structure Interval where
  low : Nat
  high : Nat
  closed : Bool

def interval (x : Binary64) : Interval :=
  let unit := 1 <<< x.scale
  let middle := 4 * x.absQuanta
  let below := if x.significand = leadingOne && x.scale ≠ 0 then unit else 2 * unit
  ⟨middle - below, middle + 2 * unit, x.significand % 2 = 0⟩

def compareScaled (a : Nat) (e : Int) (b : Nat) : Ordering :=
  if 0 ≤ e then Ord.compare (a * Text.powerOfTen e.toNat) b
  else Ord.compare a (b * Text.powerOfTen (-e).toNat)

def Interval.contains (i : Interval) (digits : Nat) (e : Int) : Bool :=
  let quarters := digits * 4 * quantaPerOne
  match compareScaled quarters e i.low, compareScaled quarters e i.high with
  | .gt, .lt => true
  | .eq, _ => i.closed
  | _, .eq => i.closed
  | _, _ => false

def pointPosition (x : Binary64) : Int :=
  let shift : Nat := 400
  (Nat.toDigits 10 (x.absQuanta * Text.powerOfTen shift / quantaPerOne)).length - (shift : Int)

/--
The decimal with `count` digits that is read back as the number, if there is one. Its two neighbours
with that many digits are the only ones to try; of two that both serve the nearer is taken, and the greater
one if they are equally near.
-/
def decimalOfLength? (x : Binary64) (count : Nat) : Option Decimal :=
  let point := x.pointPosition
  let e := point - count
  let below :=
    if 0 ≤ e then x.absQuanta / (quantaPerOne * Text.powerOfTen e.toNat)
    else x.absQuanta * Text.powerOfTen (-e).toNat / quantaPerOne
  let above := below + 1
  let upward := match compareScaled ((2 * below + 1) * quantaPerOne) e (2 * x.absQuanta) with
    | .gt => false
    | _ => true
  let ofAbove : Decimal := if above = Text.powerOfTen count then ⟨1, point + 1⟩ else ⟨above, point⟩
  match x.interval.contains below e, x.interval.contains above e with
  | false, false => none
  | true, false => some ⟨below, point⟩
  | false, true => some ofAbove
  | true, true => some (if upward then ofAbove else ⟨below, point⟩)

/--
The shortest decimal of a finite number other than zero, without its sign. Seventeen digits always
suffice.
-/
def shortest (x : Binary64) : Decimal :=
  ((List.range 17).findSome? fun n => x.decimalOfLength? (n + 1)).getD ⟨0, 0⟩

example : shortest ⟨0x3FB999999999999A⟩ = ⟨1, 0⟩ := by decide +kernel
example : shortest ⟨1⟩ = ⟨5, -323⟩ := by decide +kernel
example : shortest ⟨0x44B52D02C7E14AF6⟩ = ⟨1, 24⟩ := by decide +kernel

end Criteria.Binary64
