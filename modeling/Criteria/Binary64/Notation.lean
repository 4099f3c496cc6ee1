import Criteria.Binary64.Shortest

/-!
This module contains the writing of binary64 numbers. The digits are those of the shortest decimal. How
they are laid out is a `Layout`, of which there are two: `plain` for texts that people read and `exact`
for texts that show what kind of number is meant.
-/

namespace Criteria.Binary64

/--
The decisions of a decimal notation. The digits are written positionally if the exponent of the leading
digit is within `positional`, where there are bounds, and with an exponent otherwise.
-/
structure Layout where
  positional : Option (Int × Int)
  wholeSuffix : String

def Layout.plain : Layout := ⟨none, ""⟩

def Layout.exact : Layout := ⟨some (-4, 15), ".0"⟩

def Layout.placePoint (layout : Layout) (digits : List Char) (point : Int) : String :=
  if point ≤ 0 then
    "0." ++ String.ofList (List.replicate (-point).toNat '0' ++ digits)
  else
    let whole := digits.take point.toNat
    let fraction := digits.drop point.toNat
    if fraction.isEmpty then
      String.ofList (whole ++ List.replicate (point.toNat - whole.length) '0') ++ layout.wholeSuffix
    else
      String.ofList whole ++ "." ++ String.ofList fraction

def scientific (digits : List Char) (point : Int) : String :=
  let fraction := digits.drop 1
  String.ofList (digits.take 1) ++ (if fraction.isEmpty then "" else "." ++ String.ofList fraction) ++
    "e" ++ toString (point - 1)

def Layout.writeAbs (layout : Layout) (x : Binary64) : String :=
  if x.magnitude = 0 then
    "0" ++ layout.wholeSuffix
  else
    let decimal := x.shortest
    let digits := Nat.toDigits 10 decimal.digits
    match layout.positional with
    | none => layout.placePoint digits decimal.point
    | some (least, greatest) =>
      if least ≤ decimal.point - 1 ∧ decimal.point - 1 ≤ greatest then
        layout.placePoint digits decimal.point
      else
        scientific digits decimal.point

def Layout.write (layout : Layout) (x : Binary64) : String :=
  if x.isNaN then
    "NaN"
  else
    (if x.isNegative then "-" else "") ++ if x.isInfinite then "inf" else layout.writeAbs x

def toText (x : Binary64) : String := Layout.plain.write x

example : toText ⟨0xBFF8000000000000⟩ = "-1.5" := by decide +kernel
example : toText (zero true) = "-0" := by decide +kernel
example : Layout.exact.write ⟨0x3FF0000000000000⟩ = "1.0" := by decide +kernel
example : Layout.exact.write ⟨0x4341C37937E08000⟩ = "1e16" := by decide +kernel
example : toText ⟨0x4341C37937E08000⟩ = "10000000000000000" := by decide +kernel
example : Layout.exact.write ⟨0x3F1A36E2EB1C432D⟩ = "0.0001" := by decide +kernel
example : Layout.exact.write ⟨0x3EE4F8B588E368F1⟩ = "1e-5" := by decide +kernel

end Criteria.Binary64
