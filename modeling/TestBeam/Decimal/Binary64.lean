/-!
# The parts of a double

A finite double is a sign and a magnitude `mantissa * 2 ^ exponent`. Everything that prints or
rounds a number works on these parts with exact natural numbers.
-/

namespace TestBeam.Decimal

/-- The number `mantissa * 2 ^ exponent`. -/
structure Magnitude where
  mantissa : Nat
  exponent : Int
  deriving DecidableEq, Repr

/-- The sign bit, which is also set for negative zero. -/
def isNegative (x : Float) : Bool :=
  x.toBits.toNat / Nat.pow 2 63 == 1

/-- The magnitude of a finite double. -/
def magnitude (x : Float) : Magnitude :=
  let bits : Nat := x.toBits.toNat
  let biased : Nat := bits / Nat.pow 2 52 % Nat.pow 2 11
  let fraction : Nat := bits % Nat.pow 2 52
  if biased = 0 then ⟨fraction, -1074⟩
  else ⟨Nat.pow 2 52 + fraction, (biased : Int) - 1075⟩

/-- A quotient of naturals, used for exact comparisons. -/
structure Ratio where
  numerator : Nat
  denominator : Nat

def Magnitude.ratio (v : Magnitude) : Ratio :=
  ⟨v.mantissa * Nat.pow 2 v.exponent.toNat, Nat.pow 2 (-v.exponent).toNat⟩

/-- Multiplies by a power of ten, which may be negative. -/
def Ratio.shift (r : Ratio) (e : Int) : Ratio :=
  ⟨r.numerator * Nat.pow 10 e.toNat, r.denominator * Nat.pow 10 (-e).toNat⟩

/-- How an exact half is rounded. -/
inductive Tie where
  | up
  | toEven
  deriving DecidableEq, Repr

/-- The nearest natural number. -/
def Ratio.round (r : Ratio) (tie : Tie) : Nat :=
  let whole := r.numerator / r.denominator
  let twice := 2 * (r.numerator % r.denominator)
  if twice < r.denominator then whole
  else if r.denominator < twice then whole + 1
  else
    match tie with
    | .up => whole + 1
    | .toEven => if whole % 2 = 0 then whole else whole + 1

/-- The decimal digits of a natural number. -/
def digits (n : Nat) : List Char :=
  Nat.toDigits 10 n

/-- The exponent of the first decimal digit, for a ratio that is not zero. -/
def Ratio.leadingExponent (r : Ratio) : Int :=
  if r.denominator ≤ r.numerator then
    (digits (r.numerator / r.denominator)).length - 1
  else
    -- The least `k` with `denominator ≤ numerator * 10 ^ k`.
    -((digits ((r.denominator - 1) / r.numerator)).length : Int)

end TestBeam.Decimal
