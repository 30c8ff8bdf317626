import TestBeam.Decimal.Shortest

/-!
# How numbers are written

One `Layout` says how an output format spells a double: which way ties go, which sizes are written
positionally, whether a whole number keeps `.0`, and the names of the values that are not finite.
Fixed places and significant digits are rounded from the exact value, with ties to even.
-/

namespace TestBeam.Decimal

/-! ## Positional and exponent form -/

/-- Digits with a decimal point, never an exponent. -/
def positional (s : Scaled) (pointZero : Bool) : List Char :=
  let ds := digits s.coefficient
  let point : Int := ds.length + s.exponent
  if 0 ≤ s.exponent then
    ds ++ List.replicate s.exponent.toNat '0' ++ (if pointZero then ['.', '0'] else [])
  else if 0 < point then
    ds.take point.toNat ++ '.' :: ds.drop point.toNat
  else
    '0' :: '.' :: (List.replicate (-point).toNat '0' ++ ds)

def integer (i : Int) : List Char :=
  if i < 0 then '-' :: digits i.natAbs else digits i.natAbs

/-- One digit, the others after a point, and an exponent that always has a sign. -/
def exponential (s : Scaled) : List Char :=
  let ds := digits s.coefficient
  let trimmed := (ds.reverse.dropWhile (· == '0')).reverse
  let e : Int := ds.length - 1 + s.exponent
  let mantissa :=
    match trimmed with
    | first :: second :: rest => first :: '.' :: second :: rest
    | short => short
  mantissa ++ 'e' :: (if 0 ≤ e then '+' :: integer e else integer e)

/-! ## Layouts -/

/-- How an output format spells doubles. -/
structure Layout where
  tie : Tie
  /-- Whether a number whose first digit has this exponent is written positionally. -/
  isPositional : Int → Bool
  /-- Whether a whole number ends in `.0`. -/
  pointZero : Bool
  notANumber : String
  infinity : String

def signed (negative : Bool) (text : List Char) : List Char :=
  if negative then '-' :: text else text

/-- The text of a double in a layout. -/
def Layout.print (layout : Layout) (x : Float) : String :=
  if x.isNaN then layout.notANumber
  else if !x.isFinite then String.ofList (signed (isNegative x) layout.infinity.toList)
  else
    let s := (magnitude x).shortest layout.tie
    let leading : Int := (digits s.coefficient).length - 1 + s.exponent
    let body :=
      if s.coefficient = 0 || layout.isPositional leading then positional s layout.pointZero
      else exponential s
    String.ofList (signed (isNegative x) body)

/-- Setting values and messages never use an exponent and keep no `.0`. -/
def plain : Layout where
  tie := .up
  isPositional := fun _ => true
  pointZero := false
  notANumber := "NaN"
  infinity := "inf"

/-- The plain text of a double. -/
def display (x : Float) : String :=
  plain.print x

/-! ## Rounded text -/

/-- The text of a value that is not finite. -/
def display? (x : Float) : Option String :=
  if x.isFinite then none else some (display x)

def fixed (places : Nat) (x : Float) : String :=
  (display? x).getD <|
    let n := ((magnitude x).ratio.shift places).round .toEven
    let ds := digits n
    let padded := List.replicate (places + 1 - ds.length) '0' ++ ds
    let whole := padded.take (padded.length - places)
    let fraction := padded.drop (padded.length - places)
    let body := if places = 0 then whole else whole ++ '.' :: fraction
    String.ofList (signed (isNegative x) body)

/-- One digit before the point, `places` after it, and an exponent with a sign only if negative. -/
def scientific (places : Nat) (x : Float) : String :=
  (display? x).getD <|
    let r := (magnitude x).ratio
    let leading := if r.numerator = 0 then 0 else r.leadingExponent
    let rounded := (r.shift (places - leading)).round .toEven
    -- Rounding up may add a digit, as 9.99 with one place becomes 10.0.
    let (n, e) := if rounded = Nat.pow 10 (places + 1) then (Nat.pow 10 places, leading + 1)
      else (rounded, leading)
    let ds := digits n
    let padded := List.replicate (places + 1 - ds.length) '0' ++ ds
    let body := if places = 0 then padded else padded.take 1 ++ '.' :: padded.drop 1
    String.ofList (signed (isNegative x) (body ++ 'e' :: integer e))

end TestBeam.Decimal
