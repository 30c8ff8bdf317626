import TestBeam.Decimal.Binary64

/-!
# Shortest digits

Of all decimals that read back as a double, print one with the fewest digits, and of those the
nearest. A decimal reads back if it lies in the interval of numbers that round to the double. For
each digit count only the two neighbours of the double on that decimal grid can be nearest, so the
search looks at those two.
-/

namespace TestBeam.Decimal

/-- The number `coefficient * 10 ^ exponent`. -/
structure Scaled where
  coefficient : Nat
  exponent : Int
  deriving DecidableEq, Repr

/-- The numbers that round to one double. The ends belong to it when the mantissa is even. -/
structure Interval where
  low : Ratio
  middle : Ratio
  high : Ratio
  closed : Bool

/-- The neighbour below is only half as far away when the mantissa is the least of its exponent. -/
def Magnitude.interval (v : Magnitude) : Interval :=
  let below := if v.mantissa = Nat.pow 2 52 && -1074 < v.exponent then 1 else 2
  let quarters (n : Nat) : Ratio := Magnitude.ratio ⟨n, v.exponent - 2⟩
  { low := quarters (4 * v.mantissa - below)
    middle := quarters (4 * v.mantissa)
    high := quarters (4 * v.mantissa + 2)
    closed := v.mantissa % 2 == 0 }

/-- Whether `n` lies in the interval after all three numbers were multiplied by `10 ^ shift`. -/
def Interval.contains (i : Interval) (shift : Int) (n : Nat) : Bool :=
  let low := i.low.shift shift
  let high := i.high.shift shift
  let scaled := n * low.denominator
  if i.closed then low.numerator ≤ scaled && scaled ≤ high.numerator
  else low.numerator < scaled && scaled < high.numerator

/-- The nearest grid point inside the interval, if the grid has one there. -/
def Interval.nearest? (i : Interval) (shift : Int) (tie : Tie) : Option Nat :=
  let middle := i.middle.shift shift
  let floor := middle.numerator / middle.denominator
  match i.contains shift floor, i.contains shift (floor + 1) with
  | false, false => none
  | true, false => some floor
  | false, true => some (floor + 1)
  | true, true => some (middle.round tie)

/-- Tries one more digit until a grid has a point in the interval. -/
def Interval.search (i : Interval) (tie : Tie) (leading : Int) : Nat → Nat → Scaled
  | 0, count => ⟨(i.middle.shift (count - leading)).round tie, leading - count⟩
  | more + 1, count =>
    match i.nearest? (count - leading) tie with
    | some n => ⟨n, leading - count⟩
    | none => i.search tie leading more (count + 1)

/-- Moves a final zero into the exponent. -/
def Scaled.reduce (s : Scaled) : Scaled :=
  if s.coefficient % 10 = 0 then ⟨s.coefficient / 10, s.exponent + 1⟩ else s

/--
Seventeen digits always suffice for a double. Only a first grid that rounds 9 up to 10 can leave a
final zero.
-/
def Magnitude.shortest (v : Magnitude) (tie : Tie) : Scaled :=
  if v.mantissa = 0 then ⟨0, 0⟩
  else (v.interval.search tie v.ratio.leadingExponent 16 0).reduce

end TestBeam.Decimal
