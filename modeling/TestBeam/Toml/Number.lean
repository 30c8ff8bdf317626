import TestBeam.Toml.Text

/-!
# Reading numbers

Single underscores may stand between the digits of a number. Integers fit 64 bits and may be written in
base 16, 8 or 2. A float has a fraction or an exponent, or is one of the words `inf` and `nan`.
-/

namespace TestBeam.Toml

/-- Further digits, each of which may follow an underscore. -/
def readMoreDigits (isDigit : Char → Bool) : List Char → List Char × List Char
  | [] => ([], [])
  | [c] => if isDigit c then ([c], []) else ([], [c])
  | c :: d :: cs =>
    if isDigit c then
      let (digits, rest) := readMoreDigits isDigit (d :: cs)
      (c :: digits, rest)
    else if c = '_' && isDigit d then
      let (digits, rest) := readMoreDigits isDigit cs
      (d :: digits, rest)
    else ([], c :: d :: cs)

/-- At least one digit. -/
def readDigits (isDigit : Char → Bool) : List Char → Option (List Char × List Char)
  | [] => none
  | c :: cs =>
    if isDigit c then
      let (digits, rest) := readMoreDigits isDigit cs
      some (c :: digits, rest)
    else none

/-- A number that starts with zero has no further digit. -/
def readWhole : List Char → Option (List Char × List Char)
  | '0' :: cs => some (['0'], cs)
  | cs => readDigits Char.isDigit cs

def spanSign : List Char → List Char × List Char
  | '-' :: cs => (['-'], cs)
  | '+' :: cs => (['+'], cs)
  | cs => ([], cs)

/-! ## Floats -/

def readFraction : List Char → Option (List Char × List Char)
  | '.' :: cs => (readDigits Char.isDigit cs).map fun (ds, cs) => ('.' :: ds, cs)
  | _ => none

def readExponent : List Char → Option (List Char × List Char)
  | [] => none
  | c :: cs =>
    if c = 'e' || c = 'E' then
      let (sign, cs) := spanSign cs
      (readDigits Char.isDigit cs).map fun (ds, cs) => ('e' :: sign ++ ds, cs)
    else none

/-- The digits of a float with its point and exponent. -/
def readFloatDigits (cs : List Char) : Option (List Char × List Char) := do
  let (whole, cs) ← readWhole cs
  match readFraction cs with
  | some (fraction, cs) =>
    match readExponent cs with
    | some (exponent, cs) => return (whole ++ fraction ++ exponent, cs)
    | none => return (whole ++ fraction, cs)
  | none =>
    let (exponent, cs) ← readExponent cs
    return (whole ++ exponent, cs)

/-- The words `inf` and `nan`. -/
def readFloatWord : List Char → Option (List Char × List Char)
  | 'i' :: 'n' :: 'f' :: cs => some (['i', 'n', 'f'], cs)
  | 'n' :: 'a' :: 'n' :: cs => some (['n', 'a', 'n'], cs)
  | _ => none

/-- A float. Digits above the largest double are refused, but only without a minus sign. -/
def readFloat (cs : List Char) : Option (Float × List Char) := do
  let (sign, body) := spanSign cs
  match readFloatWord body with
  | some (word, rest) => return (← Decimal.readFloat (sign ++ word), rest)
  | none =>
    let (digits, rest) ← readFloatDigits body
    let x ← Decimal.readFloat (sign ++ digits)
    if x == 1 / 0 then none else some (x, rest)

/-! ## Integers -/

/-- Whether a character is a digit of a base up to 16. -/
def isDigitOf (base : Nat) (c : Char) : Bool :=
  match hexValue? c with
  | some d => d < base
  | none => false

def readBased (base : Nat) (cs : List Char) : Option (Int64 × List Char) := do
  let (ds, rest) ← readDigits (isDigitOf base) cs
  let n := ds.foldl (fun n c => base * n + (hexValue? c).getD 0) 0
  return (← Decimal.int64OfInt? n, rest)

def readInteger : List Char → Option (Int64 × List Char)
  | '0' :: 'x' :: cs => readBased 16 cs
  | '0' :: 'o' :: cs => readBased 8 cs
  | '0' :: 'b' :: cs => readBased 2 cs
  | cs => do
    let (sign, body) := spanSign cs
    let (digits, rest) ← readWhole body
    return (← Decimal.readInt64 (sign ++ digits), rest)

end TestBeam.Toml
