import TestBeam.Decimal.Layout

/-!
# JSON values

Histograms and run summaries are stored as JSON. A number keeps its literal, so each reader decides
which numbers it takes.
-/

namespace TestBeam

/-- A JSON value. The fields of an object keep their order. -/
inductive Json where
  | null
  | boolean (value : Bool)
  | number (literal : List Char)
  | string (value : String)
  | array (items : List Json)
  | object (fields : List (String × Json))
  /-- A value that can be passed over but not used: some escape in it stands for no character. -/
  | unusable
  deriving Repr

namespace Json

/-! ## Numbers -/

/-- From 0.00001 up to below 1e16 a number is written positionally. -/
def numberLayout : Decimal.Layout where
  tie := .toEven
  isPositional := fun e => -5 ≤ e && e ≤ 15
  pointZero := true
  notANumber := "null"
  infinity := "null"

def ofNat (n : Nat) : Json :=
  .number (Decimal.digits n)

/-- Values that are not finite have no literal. -/
def ofFloat (x : Float) : Json :=
  if x.isFinite then .number (numberLayout.print x).toList else .null

def ofOption (text : Option String) : Json :=
  match text with
  | some s => .string s
  | none => .null

/-! ## Parts of a value -/

/-- The value of a field that occurs at most once. The outer `none` stands for a repeated field. -/
def field? (name : String) (fields : List (String × Json)) : Option (Option Json) :=
  match fields.filter (·.1 == name) with
  | [] => some none
  | [(_, value)] => some (some value)
  | _ => none

/--
The parts of a record with known fields. It is an object, whose other fields are passed over, or an
array of exactly these parts.
-/
def record? (names : List String) : Json → Option (List (Option Json))
  | .object fields => names.mapM fun name => field? name fields
  | .array items => if items.length = names.length then some (items.map some) else none
  | _ => none

def string? : Json → Option String
  | .string s => some s
  | _ => none

def items? : Json → Option (List Json)
  | .array items => some items
  | _ => none

end Json

end TestBeam
