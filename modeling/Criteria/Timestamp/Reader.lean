import Criteria.Text.Blank
import Criteria.Text.Numeral
import Criteria.Timestamp.Basic
import Criteria.Timestamp.Calendar

/-!
This module contains the three ways to write a timestamp: as a number of milliseconds, as a date with
time and offset in the form of RFC 3339, and as a plain date, which means its first moment in universal
time.
-/

namespace Criteria.Timestamp

abbrev Reader := StateT (List Char) Option

namespace Reader

def charWhere (p : Char → Bool) : Reader Char
  | c :: s => if p c then some (c, s) else none
  | [] => none

def fixedDigits (count : Nat) : Reader Nat := fun s =>
  let digits := s.take count
  if digits.length = count && digits.all Char.isDigit then
    some (Text.valueOfDigits digits, s.drop count)
  else
    none

def someDigits : Reader (List Char) := fun s =>
  let digits := s.takeWhile Char.isDigit
  if digits.isEmpty then none else some (digits, s.dropWhile Char.isDigit)

def fewDigits (limit : Nat) : Reader Nat := fun s =>
  let digits := (s.take limit).takeWhile Char.isDigit
  if digits.isEmpty then none else some (Text.valueOfDigits digits, s.drop digits.length)

def skipBlanks : Reader Unit := fun s => some ((), s.dropWhile Text.isBlank)

def peek : Reader (Option Char) := fun s => some (s.head?, s)

def runToEnd {α : Type} (reader : Reader α) (s : List Char) : Option α :=
  match reader.run s with
  | some (value, []) => some value
  | _ => none

end Reader

open Reader

/--
The offset of a local time from universal time, in seconds: the letter `Z`, or a sign with hours and
minutes. The sign may also be the minus sign of typography.
-/
def readOffset : Reader Int := do
  let sign ← charWhere fun c => c = 'Z' || c = 'z' || c = '+' || c = '-' || c = '\u2212'
  if sign = 'Z' || sign = 'z' then
    return 0
  let hours ← fixedDigits 2
  let _ ← charWhere (· = ':')
  let minutes ← fixedDigits 2
  guard (hours ≤ 23 && minutes ≤ 59)
  let seconds : Int := hours * 3600 + minutes * 60
  return if sign = '+' then seconds else -seconds

def readFraction : Reader Nat := do
  if (← peek) = some '.' then
    let _ ← charWhere (· = '.')
    let digits ← someDigits
    return Text.valueOfDigits ((digits ++ ['0', '0']).take 3)
  else
    return 0

def millisOfDate (date : Date) : Int :=
  date.dayNumber * 86400000

/--
A date with time and offset. The second 60 of any minute is the one that follows its second 59.
-/
def readDateTime : Reader Int := do
  let year ← fixedDigits 4
  let _ ← charWhere (· = '-')
  let month ← fixedDigits 2
  let _ ← charWhere (· = '-')
  let day ← fixedDigits 2
  let _ ← charWhere fun c => c = 'T' || c = 't' || c = ' '
  let hour ← fixedDigits 2
  let _ ← charWhere (· = ':')
  let minute ← fixedDigits 2
  let _ ← charWhere (· = ':')
  let second ← fixedDigits 2
  let fraction ← readFraction
  let offset ← readOffset
  let date : Date := ⟨year, month, day⟩
  guard (date.isValid && hour ≤ 23 && minute ≤ 59 && second ≤ 60)
  return millisOfDate date + (hour * 3600 + minute * 60 + second - offset) * 1000 + fraction

/--
A year of a plain date: any number of digits after a sign, and up to four without one.
-/
def readYear : Reader Int := do
  match ← peek with
  | some '-' =>
    let _ ← charWhere (· = '-')
    return -(Text.valueOfDigits (← someDigits) : Int)
  | some '+' =>
    let _ ← charWhere (· = '+')
    return Text.valueOfDigits (← someDigits)
  | _ => return ← fewDigits 4

def readDate : Reader Int := do
  skipBlanks
  let year ← readYear
  let _ ← charWhere (· = '-')
  skipBlanks
  let month ← fewDigits 2
  let _ ← charWhere (· = '-')
  skipBlanks
  let day ← fewDigits 2
  let date : Date := ⟨year, month, day⟩
  guard date.isValid
  return millisOfDate date

/--
Read a timestamp between blanks, in the first of the three forms that fits.
-/
def read? (text : String) : Option Timestamp :=
  let s := Text.trim text.toList
  match Text.int64? s with
  | some millis => some ⟨millis⟩
  | none =>
    (readDateTime.runToEnd s <|> readDate.runToEnd s).map fun millis => ⟨Int64.ofInt millis⟩

example : read? "1970-01-01T01:00:00+01:00" = some ⟨0⟩ := by decide +kernel
example : read? "1970-01-01T00:00:00.9999Z" = some ⟨999⟩ := by decide +kernel
example : read? "1969-12-31T23:59:60.5z" = some ⟨500⟩ := by decide +kernel
example : read? "1970-1- 2" = some ⟨86400000⟩ := by decide +kernel
example : read? "2023-02-29" = none := by decide +kernel

end Criteria.Timestamp
