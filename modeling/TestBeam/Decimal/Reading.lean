import TestBeam.Decimal.Binary64

/-!
# Reading numbers

A number literal is an optional sign and then digits with an optional point and exponent, or one of
the words for infinity and not-a-number. At least one digit stands beside the point. The double read
is the one nearest to the exact decimal value.
-/

namespace TestBeam.Decimal

/-! ## Digits -/

def digitValue (c : Char) : Nat :=
  c.toNat - '0'.toNat

def value (ds : List Char) : Nat :=
  ds.foldl (fun acc c => 10 * acc + digitValue c) 0

/-- The digits in front, and the rest. -/
def spanDigits (cs : List Char) : List Char × List Char :=
  (cs.takeWhile Char.isDigit, cs.dropWhile Char.isDigit)

/-- A leading sign. The flag is set for `-`. -/
def spanSign : List Char → Bool × List Char
  | '-' :: cs => (true, cs)
  | '+' :: cs => (false, cs)
  | cs => (false, cs)

/-! ## Integers -/

/-- The integer of an optional sign and at least one digit. -/
def readInt (cs : List Char) : Option Int :=
  let (negative, ds) := spanSign cs
  if ds.isEmpty || !ds.all Char.isDigit then none
  else some (if negative then -(value ds : Int) else value ds)

/-- An integer that fits 64 bits with a sign. -/
def int64OfInt? (i : Int) : Option Int64 :=
  if Int64.minValue.toInt ≤ i && i ≤ Int64.maxValue.toInt then some (Int64.ofInt i) else none

def readInt64 (cs : List Char) : Option Int64 :=
  (readInt cs).bind int64OfInt?

/-! ## Doubles -/

/-- A number as written, before rounding. -/
inductive Literal where
  | notANumber
  | infinite (negative : Bool)
  | finite (negative : Bool) (coefficient : Nat) (exponent : Int)
  deriving DecidableEq, Repr

/-- The exponent part, which may be missing. -/
def readExponent : List Char → Option Int
  | [] => some 0
  | c :: cs => if c = 'e' || c = 'E' then readInt cs else none

/-- A point and the digits after it, if there are any. -/
def spanFraction : List Char → List Char × List Char
  | '.' :: cs => spanDigits cs
  | cs => ([], cs)

/-- The words that stand for values without digits. -/
def readWord (negative : Bool) (cs : List Char) : Option Literal :=
  let word := String.ofList (cs.map Char.toLower)
  if word = "inf" || word = "infinity" then some (.infinite negative)
  else if word = "nan" then some .notANumber
  else none

def readLiteral (cs : List Char) : Option Literal :=
  let (negative, body) := spanSign cs
  match readWord negative body with
  | some word => some word
  | none =>
    let (whole, rest) := spanDigits body
    let (fraction, rest) := spanFraction rest
    if whole.isEmpty && fraction.isEmpty then none
    else
      (readExponent rest).map fun e =>
        .finite negative (value (whole ++ fraction)) (e - fraction.length)

/-- The double nearest to `coefficient * 10 ^ exponent`. Far out of range it is infinite or zero. -/
def nearestDouble (coefficient : Nat) (exponent : Int) : Float :=
  let size : Int := (digits coefficient).length + exponent
  if coefficient = 0 || size < -400 then 0
  else if 400 < size then 1 / 0
  else Float.ofScientific coefficient (exponent < 0) exponent.natAbs

def Literal.toFloat : Literal → Float
  | .notANumber => 0 / 0
  | .infinite negative => if negative then -1 / 0 else 1 / 0
  | .finite negative coefficient exponent =>
    let x := nearestDouble coefficient exponent
    if negative then -x else x

/-- The double of a number literal. -/
def readFloat (cs : List Char) : Option Float :=
  (readLiteral cs).map Literal.toFloat

def parse? (text : String) : Option Float :=
  readFloat text.toList

end TestBeam.Decimal
