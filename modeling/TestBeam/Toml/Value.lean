import TestBeam.Toml.Datetime

/-!
# Document values

The values of a configuration document. The fields of a table keep their order.
-/

namespace TestBeam

inductive Toml where
  | string (value : String)
  | integer (value : Int64)
  | float (value : Float)
  | boolean (value : Bool)
  | datetime (value : Toml.Datetime)
  | array (items : List Toml)
  | table (fields : List (String × Toml))
  deriving Repr

namespace Toml

def kind : Toml → String
  | .string _ => "string"
  | .integer _ => "integer"
  | .float _ => "float"
  | .boolean _ => "boolean"
  | .datetime _ => "datetime"
  | .array _ => "array"
  | .table _ => "table"

/-! ## Dates as tables -/

/-- The field under which a date is presented as a table. -/
def dateField : String :=
  "$__toml_private_datetime"

mutual

/-- A table that starts with the date field stands for its date. It fails where there is no date. -/
def revealDates : Toml → Option Toml
  | .array items => (revealItems items).map .array
  | .table ((key, value) :: rest) =>
    if key = dateField then
      match value with
      | .string s => (Datetime.parse? s).map .datetime
      | _ => none
    else do
      let value ← revealDates value
      return .table ((key, value) :: (← revealFields rest))
  | other => some other

def revealItems : List Toml → Option (List Toml)
  | [] => some []
  | item :: rest => do return (← revealDates item) :: (← revealItems rest)

def revealFields : List (String × Toml) → Option (List (String × Toml))
  | [] => some []
  | (key, value) :: rest => do return (key, ← revealDates value) :: (← revealFields rest)

end

/-! ## Characters -/

/-- A bare key is made of letters, digits, hyphens and underscores. -/
def isBareKeyChar (c : Char) : Bool :=
  c.isAlphanum || c == '-' || c == '_'

/-- Characters that no text in a document holds unescaped, besides line breaks. -/
def isControl (c : Char) : Bool :=
  (c.toNat < 0x20 && c ≠ '\t' && c ≠ '\n') || c.toNat = 0x7F

end Toml

end TestBeam
