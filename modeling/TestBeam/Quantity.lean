import TestBeam.Decimal.Layout
import TestBeam.Decimal.Reading
import TestBeam.Dimension
import TestBeam.Geometry.Vector
import TestBeam.Text.Blank

/-!
# Quantities

A quantity is a number with an optional unit, such as `0.1GeV`. The unit is the run of letters at the
end that leaves the longest number in front. Units are looked up only when the quantity is converted.
-/

namespace TestBeam

/-- A number with an optional unit. -/
structure Quantity where
  value : Float
  unit : Option String
  deriving BEq, Repr

/-- Why a text is not a quantity of the expected dimension. -/
inductive UnitError where
  | empty
  | invalidNumber (text : String)
  | unknownUnit (unit : String)
  | wrongDimension (unit : String) (expected found : Dimension)
  | wrongCount (text : String) (expected found : Nat)
  deriving DecidableEq, Repr

def UnitError.message : UnitError → String
  | .empty => "empty quantity"
  | .invalidNumber text => "'" ++ text ++ "' is not a number with an optional unit"
  | .unknownUnit unit => "unknown unit '" ++ unit ++ "'"
  | .wrongDimension unit expected found =>
    "unit '" ++ unit ++ "' measures " ++ found.name ++ ", expected " ++ expected.name
  | .wrongCount text expected found =>
    "expected " ++ toString expected ++ " components in '" ++ text ++ "', found " ++ toString found

namespace Quantity

/-- A number in internal units. -/
def bare (value : Float) : Quantity :=
  ⟨value, none⟩

def display (q : Quantity) : String :=
  Decimal.display q.value ++ q.unit.getD ""

/-! ## Reading -/

/-- A finite number in front of letters. -/
def ofParts? (number letters : List Char) : Option Quantity :=
  if letters.all Char.isAlpha then
    (Decimal.readFloat number).bind fun value =>
      if value.isFinite then
        some ⟨value, if letters.isEmpty then none else some (String.ofList letters)⟩
      else none
  else none

/-- All ways to cut a text in two with a first part that is not empty, longest first part first. -/
def cuts (cs : List Char) : List (List Char × List Char) :=
  (List.range cs.length).reverse.map fun n => (cs.take (n + 1), cs.drop (n + 1))

/-- A number starts with a digit, a point or a sign. -/
def startsNumeric : List Char → Bool
  | [] => false
  | c :: _ => c.isDigit || c == '.' || c == '+' || c == '-'

/-- Reads a quantity, ignoring blanks at both ends. -/
def parse (text : String) : Except UnitError Quantity :=
  let cs := Text.trimChars text.toList
  if cs.isEmpty then .error .empty
  else if !startsNumeric cs then .error (.invalidNumber (String.ofList cs))
  else
    match (cuts cs).findSome? fun (number, letters) => ofParts? number letters with
    | some q => .ok q
    | none => .error (.invalidNumber (String.ofList cs))

/-- The quantity of a text that is one number immediately followed by a unit. -/
def withUnit? (text : String) : Option Quantity :=
  if (Text.trimChars text.toList).any Text.isBlank then none
  else
    match parse text with
    | .ok q => if q.unit.isSome then some q else none
    | .error _ => none

/-! ## Conversion -/

/-- The value in internal units. A bare number already is in internal units. -/
def toInternal (q : Quantity) (dimension : Dimension) : Except UnitError Float :=
  match q.unit with
  | none => .ok q.value
  | some symbol =>
    match MeasureUnit.find? symbol with
    | none => .error (.unknownUnit symbol)
    | some unit =>
      if unit.dimension = dimension then .ok (q.value * unit.factor)
      else .error (.wrongDimension symbol dimension unit.dimension)

/-- Reads one quantity and converts it. -/
def read (text : String) (dimension : Dimension) : Except UnitError Float :=
  (parse text).bind fun q => q.toInternal dimension

/-- Reads all quantities of a list and converts them. -/
def readList (text : String) (dimension : Dimension) : Except UnitError (List Float) :=
  (Text.words text).mapM fun word => read word dimension

/-- Reads exactly three quantities. -/
def readVector (text : String) (dimension : Dimension) : Except UnitError (Vec3 Float) :=
  (readList text dimension).bind fun values =>
    match values with
    | [x, y, z] => .ok ⟨x, y, z⟩
    | _ => .error (.wrongCount text 3 values.length)

end Quantity

end TestBeam
