import TestBeam.Quantity

/-!
# Setting values

A setting is text, an integer, a number, a truth value or a quantity. Entries store settings in the
form in which a configuration document reads them back, see `Setting.normalized`.
-/

namespace TestBeam

inductive Setting where
  | text (value : String)
  | integer (value : Int64)
  | float (value : Float)
  | boolean (value : Bool)
  | quantity (value : Quantity)
  deriving BEq, Repr

namespace Setting

/-- Text that is one number immediately followed by a unit is a quantity. -/
def ofText (text : String) : Setting :=
  match Quantity.withUnit? text with
  | some q => .quantity q
  | none => .text text

/-- Reads a value given on the command line, where nothing is quoted. -/
def ofOption (text : String) : Setting :=
  let cs := Text.trimChars text.toList
  let trimmed := String.ofList cs
  if trimmed = "true" then .boolean true
  else if trimmed = "false" then .boolean false
  else
    match Decimal.readInt64 cs, Decimal.readFloat cs with
    | some i, _ => .integer i
    | none, some x => if x.isFinite then .float x else ofText trimmed
    | none, none => ofText trimmed

def display : Setting → String
  | .text s => s
  | .integer i => String.ofList (Decimal.integer i.toInt)
  | .float x => Decimal.display x
  | .boolean b => if b then "true" else "false"
  | .quantity q => q.display

/--
The form a document reads the value back as. Text that reads as a quantity becomes one, a quantity
whose text does not becomes text, and numbers that are not finite are kept as text.
-/
def normalized : Setting → Setting
  | .text s => ofText s
  | .quantity q => ofText q.display
  | .float x => if x.isFinite then .float x else .text (Decimal.display x)
  | .integer i => .integer i
  | .boolean b => .boolean b

/-- The name of the kind of value. -/
def kind : Setting → String
  | .text _ => "text"
  | .integer _ => "integer"
  | .float _ => "float"
  | .boolean _ => "bool"
  | .quantity _ => "quantity"

end Setting

end TestBeam
