/-!
This module contains the calendar: which dates there are, and how many days lie between the first of
January 1970 and a date. The Gregorian rules are applied to all years, also those before their
introduction.
-/

namespace Criteria

structure Date where
  year : Int
  month : Nat
  day : Nat
  deriving DecidableEq

namespace Date

def isLeapYear (year : Int) : Bool :=
  year % 4 = 0 && (year % 100 ≠ 0 || year % 400 = 0)

def monthLengths (year : Int) : List Nat :=
  [31, if isLeapYear year then 29 else 28, 31, 30, 31, 30, 31, 31, 30, 31, 30, 31]

def totalLength (lengths : List Nat) : Nat :=
  lengths.foldl Nat.add 0

def leastYear : Int := -262143

def greatestYear : Int := 262142

def isValid (date : Date) : Bool :=
  leastYear ≤ date.year && date.year ≤ greatestYear && 1 ≤ date.month && 1 ≤ date.day &&
    match (monthLengths date.year)[date.month - 1]? with
    | some length => date.day ≤ length
    | none => false

def daysBeforeYear (year : Int) : Int :=
  365 * year + (year + 3) / 4 - (year + 99) / 100 + (year + 399) / 400

def dayNumber (date : Date) : Int :=
  daysBeforeYear date.year - daysBeforeYear 1970 +
    (totalLength ((monthLengths date.year).take (date.month - 1)) + date.day - 1 : Nat)

example : dayNumber ⟨1970, 1, 1⟩ = 0 := by decide
example : dayNumber ⟨2000, 3, 1⟩ = 11017 := by decide
example : dayNumber ⟨-1, 12, 31⟩ + 1 = dayNumber ⟨0, 1, 1⟩ := by decide
example : isValid ⟨1900, 2, 29⟩ = false := by decide

end Date

end Criteria
