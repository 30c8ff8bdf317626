import TestBeam.Setting

/-!
# Entries

An entry is a named list of settings: the global section, one module or one detector. Keys are kept in
the order in which they first came, and each key has one value. Modules read their settings through
getters that say what kind of value they expect.
-/

namespace TestBeam

/-- Named settings in the order of their keys. -/
structure Entry where
  name : String
  settings : List (String × Setting)
  deriving BEq, Repr

/-- Why a setting cannot be used. -/
inductive SettingError where
  | missing (entry key : String)
  | invalid (entry key value reason : String)
  | unit (entry key value : String) (cause : UnitError)
  deriving DecidableEq, Repr

namespace SettingError

def message : SettingError → String
  | .missing entry key => "[" ++ entry ++ "] missing required setting '" ++ key ++ "'"
  | .invalid entry key value reason =>
    "[" ++ entry ++ "] setting '" ++ key ++ "' = '" ++ value ++ "': " ++ reason
  | .unit entry key value _ => "[" ++ entry ++ "] setting '" ++ key ++ "' = '" ++ value ++ "'"

/-- The texts of the causes, outermost first. -/
def causes : SettingError → List String
  | .unit _ _ _ cause => [cause.message]
  | _ => []

end SettingError

namespace Entry

def empty (name : String) : Entry :=
  ⟨name, []⟩

/-! ## Building -/

/-- Gives a key a value. A new key goes to the end. -/
def assign (key : String) (value : Setting) : List (String × Setting) → List (String × Setting)
  | [] => [(key, value)]
  | (k, v) :: rest => if k = key then (k, value) :: rest else (k, v) :: assign key value rest

/-- Sets a key to the normalized form of a value. -/
def set (entry : Entry) (key : String) (value : Setting) : Entry :=
  { entry with settings := assign key value.normalized entry.settings }

/-- An entry from key-value pairs, later ones replacing earlier ones. -/
def ofPairs (name : String) (pairs : List (String × Setting)) : Entry :=
  pairs.foldl (fun entry (key, value) => entry.set key value) (empty name)

/-! ## Look-up -/

def get? (entry : Entry) (key : String) : Option Setting :=
  entry.settings.lookup key

def has (entry : Entry) (key : String) : Bool :=
  (entry.get? key).isSome

def size (entry : Entry) : Nat :=
  entry.settings.length

def require (entry : Entry) (key : String) : Except SettingError Setting :=
  match entry.get? key with
  | some value => .ok value
  | none => .error (.missing entry.name key)

/-- The error for a value of the wrong kind. -/
def refuse {α : Type} (entry : Entry) (key : String) (value : Setting) (reason : String) :
    Except SettingError α :=
  .error (.invalid entry.name key value.display reason)

/-- Names the setting in which a unit error arose. -/
def withUnits {α : Type} (entry : Entry) (key : String) (value : Setting) :
    Except UnitError α → Except SettingError α
  | .ok x => .ok x
  | .error cause => .error (.unit entry.name key value.display cause)

/-! ## Getters -/

def text (entry : Entry) (key : String) : Except SettingError String :=
  (entry.require key).map Setting.display

def textOr (entry : Entry) (key default : String) : String :=
  ((entry.get? key).map Setting.display).getD default

def integer (entry : Entry) (key : String) : Except SettingError Int64 := do
  let value ← entry.require key
  let read? : Option Int64 :=
    match value with
    | .integer i => some i
    | .text s => Decimal.readInt64 (Text.trimChars s.toList)
    | _ => none
  match read? with
  | some i => .ok i
  | none => entry.refuse key value "expected an integer"

def integerOr (entry : Entry) (key : String) (default : Int64) : Except SettingError Int64 :=
  if entry.has key then entry.integer key else .ok default

/-- An integer that is not negative, such as a count or a seed. -/
def countOr (entry : Entry) (key : String) (default : Nat) : Except SettingError Nat := do
  if entry.has key then
    let i ← entry.integer key
    if i < 0 then entry.refuse key (.integer i) "must not be negative" else .ok i.toInt.toNat
  else .ok default

def float (entry : Entry) (key : String) : Except SettingError Float := do
  let value ← entry.require key
  let read? : Option Float :=
    match value with
    | .float x => some x
    | .integer i => some (Float.ofInt i.toInt)
    | .quantity ⟨x, none⟩ => some x
    | .text s => Decimal.readFloat (Text.trimChars s.toList)
    | _ => none
  match read? with
  | some x => .ok x
  | none => entry.refuse key value "expected a number"

/-- The words for truth values, in small letters. -/
def readBoolean (word : String) : Option Bool :=
  if word ∈ ["1", "true", "yes", "on"] then some true
  else if word ∈ ["0", "false", "no", "off"] then some false
  else none

def boolean (entry : Entry) (key : String) : Except SettingError Bool := do
  let value ← entry.require key
  let read? : Option Bool :=
    match value with
    | .boolean b => some b
    | .integer i => if i = 0 then some false else if i = 1 then some true else none
    | .text s => readBoolean (String.ofList ((Text.trimChars s.toList).map Char.toLower))
    | _ => none
  match read? with
  | some b => .ok b
  | none => entry.refuse key value "expected a boolean"

def booleanOr (entry : Entry) (key : String) (default : Bool) : Except SettingError Bool :=
  if entry.has key then entry.boolean key else .ok default

/-- A quantity in internal units. -/
def quantity (entry : Entry) (key : String) (dimension : Dimension) :
    Except SettingError Float := do
  let value ← entry.require key
  match value with
  | .quantity q => entry.withUnits key value (q.toInternal dimension)
  | .integer i => .ok (Float.ofInt i.toInt)
  | .float x => .ok x
  | .text s => entry.withUnits key value (Quantity.read s dimension)
  | .boolean _ => entry.refuse key value "expected a quantity"

/-- The default is written as in a configuration. -/
def quantityOr (entry : Entry) (key : String) (dimension : Dimension) (default : String) :
    Except SettingError Float :=
  if entry.has key then entry.quantity key dimension
  else entry.withUnits key (.ofText default) (Quantity.read default dimension)

/-- Three quantities in internal units. -/
def vector (entry : Entry) (key : String) (dimension : Dimension) :
    Except SettingError (Vec3 Float) := do
  let value ← entry.require key
  entry.withUnits key value (Quantity.readVector value.display dimension)

def vectorOr (entry : Entry) (key : String) (dimension : Dimension) (default : String) :
    Except SettingError (Vec3 Float) :=
  if entry.has key then entry.vector key dimension
  else entry.withUnits key (.ofText default) (Quantity.readVector default dimension)

def choiceOr (entry : Entry) (key : String) (choices : List String) (default : String) :
    Except SettingError String :=
  let chosen := entry.textOr key default
  if chosen ∈ choices then .ok chosen
  else entry.refuse key (.text chosen) ("expected one of: " ++ ", ".intercalate choices)

def names (entry : Entry) (key : String) : List String :=
  match entry.get? key with
  | some value => Text.words value.display
  | none => []

end Entry

end TestBeam
