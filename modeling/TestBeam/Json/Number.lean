import TestBeam.Decimal.Reading
import TestBeam.Json.Value

/-!
# Numbers of JSON values

A count is a literal of digits only that fits 64 bits. A double is read from as many digits as fit 64
bits, and scaled once by a power of ten. This is not always the nearest double.
-/

namespace TestBeam.Json

/-- The largest integer of 64 bits. -/
def maxCount : Nat := Nat.pow 2 64 - 1

/-- A number without sign, point and exponent. -/
def count? : Json → Option Nat
  | .number literal =>
    if literal.all Char.isDigit && Decimal.value literal ≤ maxCount then
      some (Decimal.value literal)
    else none
  | _ => none

/-! ## Doubles -/

/-- Leading digits that fit 64 bits. The flag is set when a digit did not fit. -/
structure Significand where
  digits : Nat
  exponent : Int
  full : Bool

namespace Significand

/-- Adds a digit. The exponent changes by one of two numbers, depending on whether the digit fits. -/
def add (s : Significand) (c : Char) (fits dropped : Int) : Significand :=
  let sum := 10 * s.digits + Decimal.digitValue c
  if s.full || maxCount < sum then { s with exponent := s.exponent + dropped, full := true }
  else { s with digits := sum, exponent := s.exponent + fits }

/-- A digit in front of the point that does not fit still counts in the exponent. -/
def ofDigits (whole fraction : List Char) : Significand :=
  let start : Significand := ⟨0, 0, false⟩
  let front := whole.foldl (fun s c => s.add c 0 1) start
  fraction.foldl (fun s c => s.add c (-1) 0) { front with full := false }

end Significand

/-- The largest power of ten that is used in one step. -/
def maxPower : Nat := 308

/-- Divides by a power of ten in steps. -/
def divideByPower (x : Float) (power : Nat) : Float :=
  if power ≤ maxPower then x / Decimal.nearestDouble 1 power
  else if x == 0 then x
  else divideByPower (x / Decimal.nearestDouble 1 maxPower) (power - maxPower)
termination_by power
decreasing_by simp only [maxPower] at *; omega

/-- Multiplies by a power of ten. It fails when the result would be infinite. -/
def scaleByPower (x : Float) (power : Int) : Option Float :=
  if power < 0 then some (divideByPower x power.natAbs)
  else if maxPower < power then if x == 0 then some x else none
  else
    let scaled := x * Decimal.nearestDouble 1 power
    if scaled.isFinite then some scaled else none

def float? : Json → Option Float
  | .number literal =>
    let (negative, body) := Decimal.spanSign literal
    let (whole, rest) := Decimal.spanDigits body
    let (fraction, rest) := Decimal.spanFraction rest
    (Decimal.readExponent rest).bind fun e =>
      let s := Significand.ofDigits whole fraction
      (scaleByPower (Float.ofNat s.digits) (s.exponent + e)).map fun x =>
        if negative then -x else x
  | _ => none

end TestBeam.Json
