/-!
This module contains the reading of whole numbers in decimal notation. A numeral is a non-empty row of
the digits 0 to 9. Signs are a matter of the reader: `integer?` takes either sign, `natural?` a plus only.
Escapes in texts use rows of hexadecimal digits.
-/

namespace Criteria.Text

def valueOfDigits (digits : List Char) : Nat :=
  digits.foldl (fun n c => 10 * n + (c.toNat - '0'.toNat)) 0

def powerOfTen (exponent : Nat) : Nat :=
  Nat.pow 10 exponent

def fitsInt64 (n : Int) : Bool :=
  -0x8000000000000000 ≤ n && n < 0x8000000000000000

def hexDigit? (c : Char) : Option Nat :=
  if c.isDigit then some (c.toNat - '0'.toNat)
  else if 'a' ≤ c && c ≤ 'f' then some (c.toNat - 'a'.toNat + 10)
  else if 'A' ≤ c && c ≤ 'F' then some (c.toNat - 'A'.toNat + 10)
  else none

def hexadecimal? (digits : List Char) : Option Nat :=
  digits.foldlM (fun n c => (hexDigit? c).map (16 * n + ·)) 0

def numeral? (s : List Char) : Option Nat :=
  if !s.isEmpty && s.all Char.isDigit then some (valueOfDigits s) else none

def natural? : List Char → Option Nat
  | '+' :: s => numeral? s
  | s => numeral? s

def integer? : List Char → Option Int
  | '-' :: s => (numeral? s).map fun n => -(n : Int)
  | s => (natural? s).map fun n => (n : Int)

def int64? (s : List Char) : Option Int64 :=
  match integer? s with
  | some n => if fitsInt64 n then some (Int64.ofInt n) else none
  | none => none

def uint64? (s : List Char) : Option UInt64 :=
  match natural? s with
  | some n => if n < UInt64.size then some (UInt64.ofNat n) else none
  | none => none

def uint32? (s : List Char) : Option UInt32 :=
  match natural? s with
  | some n => if n < UInt32.size then some (UInt32.ofNat n) else none
  | none => none

theorem int64_toInt_ofInt {n : Int} (h : fitsInt64 n) : (Int64.ofInt n).toInt = n := by
  simp only [fitsInt64, Bool.and_eq_true, decide_eq_true_eq] at h
  exact Int64.toInt_ofInt_of_le h.1 h.2

end Criteria.Text
