import Criteria.Binary64.Decimal
import Criteria.Json.Basic
import Criteria.Text.Parsed

/-!
This module contains the reading of JSON texts. Nothing is accepted beyond the grammar of RFC 8259.
-/

namespace Criteria.Json

open Text (Parsed hexadecimal?)

def skipSpace (s : List Char) : List Char :=
  s.dropWhile fun c => c = ' ' || c = '\n' || c = '\r' || c = '\t'

theorem length_skipSpace_le (s : List Char) : (skipSpace s).length ≤ s.length :=
  (List.dropWhile_sublist _).length_le

def isHighSurrogate (unit : Nat) : Bool := 0xD800 ≤ unit && unit < 0xDC00

def isLowSurrogate (unit : Nat) : Bool := 0xDC00 ≤ unit && unit < 0xE000

def ofSurrogates (high low : Nat) : Char :=
  Char.ofNat (0x10000 + (high - 0xD800) * 0x400 + (low - 0xDC00))

def escaped? (c : Char) : Option Char :=
  match c with
  | '"' | '\\' | '/' => some c
  | 'b' => some '\x08'
  | 'f' => some '\x0c'
  | 'n' => some '\n'
  | 'r' => some '\r'
  | 't' => some '\t'
  | _ => none

def consChar (c : Char) (read : Option (List Char) × List Char) : Option (List Char) × List Char :=
  (read.1.map (c :: ·), read.2)

def lowSurrogate? : List Char → Option Nat
  | '\\' :: 'u' :: a :: b :: c :: d :: _ => (hexadecimal? [a, b, c, d]).filter isLowSurrogate
  | _ => none

/--
The content of a string and what follows it, given the text behind its opening quote. The content is none if
an escape names half of a surrogate pair.
-/
def stringContent? : List Char → Option (Option (List Char) × List Char)
  | [] => none
  | '"' :: rest => some (some [], rest)
  | '\\' :: 'u' :: a :: b :: c :: d :: rest =>
    match hexadecimal? [a, b, c, d] with
    | none => none
    | some unit =>
      if isHighSurrogate unit then
        match lowSurrogate? rest with
        | some low => (stringContent? (rest.drop 6)).map (consChar (ofSurrogates unit low))
        | none => (stringContent? rest).map fun read => (none, read.2)
      else if isLowSurrogate unit then
        (stringContent? rest).map fun read => (none, read.2)
      else
        (stringContent? rest).map (consChar (Char.ofNat unit))
  | '\\' :: c :: rest =>
    match escaped? c with
    | none => none
    | some character => (stringContent? rest).map (consChar character)
  | c :: rest => if c.toNat < 0x20 || c = '\\' then none else (stringContent? rest).map (consChar c)
termination_by s => s.length

theorem length_lt_of_stringContent? {s : List Char} {read : Option (List Char) × List Char}
    (h : stringContent? s = some read) : read.2.length < s.length := by
  fun_induction stringContent? s generalizing read <;> grind [Option.map_eq_some_iff, consChar]

def string? (s : List Char) : Option (Parsed (Option String) s) :=
  match s with
  | '"' :: quoted =>
    match h : stringContent? quoted with
    | some (content, rest) =>
      some ⟨content.map String.ofList, rest, Nat.lt_succ_of_lt (length_lt_of_stringContent? h)⟩
    | none => none
  | _ => none

def isNumberChar (c : Char) : Bool :=
  c.isDigit || ['+', '-', '.', 'e', 'E'].contains c

def isWhole : List Char → Bool
  | ['0'] => true
  | c :: digits => c ≠ '0' && (c :: digits).all Char.isDigit
  | [] => false

def isExponent : List Char → Bool
  | [] => true
  | c :: s =>
    let digits := match s with
      | '+' :: digits => digits
      | '-' :: digits => digits
      | digits => digits
    (c = 'e' || c = 'E') && !digits.isEmpty && digits.all Char.isDigit

/--
The number that is written by a text without its minus sign. A whole number is an integer if it is that of a
word of 64 bits, and negative zero is not.
-/
def unsigned? (negative : Bool) (s : List Char) : Option Json :=
  let whole := s.takeWhile Char.isDigit
  let s' := s.dropWhile Char.isDigit
  let (fraction, hasFraction, exponent) :=
    match s' with
    | '.' :: s'' => (s''.takeWhile Char.isDigit, true, s''.dropWhile Char.isDigit)
    | s'' => ([], false, s'')
  if !isWhole whole || hasFraction && fraction.isEmpty || !isExponent exponent then
    none
  else
    let n := Text.valueOfDigits whole
    let isInteger := !hasFraction && exponent.isEmpty &&
      if negative then 0 < n && n ≤ 0x8000000000000000 else n < UInt64.size
    if isInteger then some (.int (if negative then -(n : Int) else n))
    else (Binary64.readUnsigned? negative s).map .float

def number? (s : List Char) : Option (Parsed Json s) :=
  match h : s.takeWhile isNumberChar with
  | [] => none
  | c :: cs => do
    let value ← match c :: cs with
      | '-' :: unsigned => unsigned? true unsigned
      | unsigned => unsigned? false unsigned
    return ⟨value, s.dropWhile isNumberChar, by
      have := congrArg List.length (List.takeWhile_append_dropWhile (p := isNumberChar) (l := s))
      rw [h, List.length_append, List.length_cons] at this
      omega⟩

mutual

def value? (s : List Char) : Option (Parsed Json s) :=
  match s with
  | 'n' :: 'u' :: 'l' :: 'l' :: rest => some ⟨.null, rest, by simp; omega⟩
  | 't' :: 'r' :: 'u' :: 'e' :: rest => some ⟨.bool true, rest, by simp; omega⟩
  | 'f' :: 'a' :: 'l' :: 's' :: 'e' :: rest => some ⟨.bool false, rest, by simp; omega⟩
  | '[' :: inside =>
    have h₁ := length_skipSpace_le inside
    match h : skipSpace inside with
    | ']' :: rest =>
      some ⟨.array [], rest, by rw [h, List.length_cons] at h₁; rw [List.length_cons]; omega⟩
    | _ => do
      let items ← items? (skipSpace inside)
      have := items.length_lt
      return ⟨.array items.value, items.rest, by rw [List.length_cons]; omega⟩
  | '\x7b' :: inside =>
    have h₁ := length_skipSpace_le inside
    match h : skipSpace inside with
    | '\x7d' :: rest =>
      some ⟨.object [], rest, by rw [h, List.length_cons] at h₁; rw [List.length_cons]; omega⟩
    | _ => do
      let members ← members? (skipSpace inside)
      have := members.length_lt
      return ⟨.object members.value, members.rest, by rw [List.length_cons]; omega⟩
  | '"' :: quoted => do
    let content ← string? ('"' :: quoted)
    return ⟨.string content.value, content.rest, content.length_lt⟩
  | s => number? s
termination_by 2 * s.length

def items? (s : List Char) : Option (Parsed (List Json) s) := do
  let first ← value? s
  have h₁ := first.length_lt
  have h₂ := length_skipSpace_le first.rest
  match h : skipSpace first.rest with
  | ',' :: rest =>
    have h₃ := length_skipSpace_le rest
    have : (skipSpace rest).length < s.length := by rw [h, List.length_cons] at h₂; omega
    let others ← items? (skipSpace rest)
    have := others.length_lt
    return ⟨first.value :: others.value, others.rest, by omega⟩
  | ']' :: rest => return ⟨[first.value], rest, by rw [h, List.length_cons] at h₂; omega⟩
  | _ => none
termination_by 2 * s.length + 1

def members? (s : List Char) : Option (Parsed (List (Option String × Json)) s) := do
  let key ← string? s
  have h₁ := key.length_lt
  have h₂ := length_skipSpace_le key.rest
  match hk : skipSpace key.rest with
  | ':' :: s' =>
    have h₃ := length_skipSpace_le s'
    have : (skipSpace s').length < s.length := by rw [hk, List.length_cons] at h₂; omega
    let value ← value? (skipSpace s')
    have h₄ := value.length_lt
    have h₅ := length_skipSpace_le value.rest
    match h : skipSpace value.rest with
    | ',' :: rest =>
      have h₆ := length_skipSpace_le rest
      have : (skipSpace rest).length < s.length := by rw [h, List.length_cons] at h₅; omega
      let others ← members? (skipSpace rest)
      have := others.length_lt
      return ⟨(key.value, value.value) :: others.value, others.rest, by omega⟩
    | '\x7d' :: rest =>
      return ⟨[(key.value, value.value)], rest, by rw [h, List.length_cons] at h₅; omega⟩
    | _ => none
  | _ => none
termination_by 2 * s.length + 1

end

def read? (text : String) : Option Json := do
  let value ← value? (skipSpace text.toList)
  if (skipSpace value.rest).isEmpty then some value.value else none

end Criteria.Json
