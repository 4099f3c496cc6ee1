import Criteria.Binary64.Nearest
import Criteria.Text.Numeral

/-!
This module contains the reading of decimal notation with point and exponent as a binary64 number,
rounded once from its exact value.
-/

namespace Criteria.Binary64

/--
The number nearest to `digits * 10 ^ exponent`. An exponent so great or so small that only an infinity
or a zero can be meant is not computed.
-/
def ofDecimal (negative : Bool) (digits : Nat) (exponent : Int) : Binary64 :=
  let position := exponent + (Nat.toDigits 10 digits).length
  if digits = 0 || position < -400 then
    zero negative
  else if 400 < position then
    infinity negative
  else if 0 ≤ exponent then
    nearest negative (digits * Text.powerOfTen exponent.toNat * quantaPerOne) 1
  else
    nearest negative (digits * quantaPerOne) (Text.powerOfTen (-exponent).toNat)

def exponent? : List Char → Option Int
  | [] => some 0
  | c :: s => if c = 'e' || c = 'E' then Text.integer? s else none

def readUnsigned? (negative : Bool) (s : List Char) : Option Binary64 :=
  let whole := s.takeWhile Char.isDigit
  let s := s.dropWhile Char.isDigit
  let (fraction, s) :=
    match s with
    | '.' :: s => (s.takeWhile Char.isDigit, s.dropWhile Char.isDigit)
    | s => ([], s)
  if whole.isEmpty && fraction.isEmpty then
    none
  else
    (exponent? s).map fun exponent =>
      ofDecimal negative (Text.valueOfDigits (whole ++ fraction)) (exponent - fraction.length)

def read? : List Char → Option Binary64
  | '-' :: s => readUnsigned? true s
  | '+' :: s => readUnsigned? false s
  | s => readUnsigned? false s

example : read? "0.1".toList = some ⟨0x3FB999999999999A⟩ := by decide +kernel
example : read? "-1.e2".toList = some (ofInt (-100)) := by decide +kernel
example : read? ".".toList = none := by decide +kernel
example : read? "1e".toList = none := by decide +kernel

end Criteria.Binary64
