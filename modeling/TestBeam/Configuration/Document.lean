import TestBeam.Configuration.Basic
import TestBeam.Toml.Printer
import TestBeam.Toml.Reader

/-!
# Configuration documents

A configuration is stored as a TOML document. It has a list of ignored names, a table for the global
section, and lists of tables for modules and detectors. The text of a configuration reads back as the
same configuration, because entries hold normalized settings.
-/

namespace TestBeam

/-! ## The shape of a document -/

/-- An entry whose settings are still document values. -/
structure EntryDocument where
  name : String
  settings : List (String × Toml)
  deriving Repr

structure ConfigurationDocument where
  ignored : Option (List String)
  global : Option EntryDocument
  modules : List EntryDocument
  detectors : List EntryDocument
  deriving Repr

/-- A date presents itself as a table. -/
def EntryDocument.settingsOf : Toml → Option (List (String × Toml))
  | .table fields => Toml.revealFields fields
  | .datetime d => some [(Toml.dateField, .string (String.ofList d.print))]
  | _ => none

def EntryDocument.ofParts (name settings : Option Toml) : Option EntryDocument :=
  match name, settings with
  | some (.string name), none => some ⟨name, []⟩
  | some (.string name), some settings => (settingsOf settings).map fun fields => ⟨name, fields⟩
  | _, _ => none

/-- An entry is a table with a name, or an array of its name and its settings. -/
def EntryDocument.ofValue : Toml → Option EntryDocument
  | .table fields => ofParts (fields.lookup "name") (fields.lookup "settings")
  | .array items => ofParts items[0]? items[1]?
  | _ => none

def Toml.string? : Toml → Option String
  | .string s => some s
  | _ => none

/-- All items of an array, read by the same reader. -/
def Toml.listOf? {α : Type} (item : Toml → Option α) : Toml → Option (List α)
  | .array items => items.mapM item
  | _ => none

/-- Other fields of the document are passed over. -/
def ConfigurationDocument.ofFields (fields : List (String × Toml)) :
    Option ConfigurationDocument := do
  let entries := Toml.listOf? EntryDocument.ofValue
  return {
    ignored := ← (fields.lookup "ignore").mapM (Toml.listOf? Toml.string?)
    global := ← (fields.lookup "global").mapM EntryDocument.ofValue
    modules := ← entries ((fields.lookup "modules").getD (.array []))
    detectors := ← entries ((fields.lookup "detectors").getD (.array [])) }

/-! ## Reading -/

/-- The text of a plain item of an array. -/
def Toml.itemText? : Toml → Option String
  | .string s => some s
  | .datetime _ => none
  | .array _ => none
  | .table _ => none
  | plain => some (String.ofList plain.print)

/-- The setting for a document value. The items of an array are joined to one text. -/
def Setting.ofValue? : Toml → Option Setting
  | .string s => some (.ofText s)
  | .integer i => some (.integer i)
  | .float x => some (.float x)
  | .boolean b => some (.boolean b)
  | .array items => (items.mapM Toml.itemText?).map fun texts => .ofText (", ".intercalate texts)
  | .datetime _ => none
  | .table _ => none

namespace EntryDocument

def setting (entry : String) (field : String × Toml) :
    Except ConfigurationError (String × Setting) :=
  match Setting.ofValue? field.2 with
  | some setting => .ok (field.1, setting)
  | none =>
    .error <| .malformedSetting <|
      .invalid entry field.1 field.2.display (field.2.kind ++ " values are not supported")

def toEntry (d : EntryDocument) : Except ConfigurationError Entry :=
  (d.settings.mapM (setting d.name)).map fun settings => Entry.ofPairs d.name settings

end EntryDocument

namespace Configuration

def ofDocument (d : ConfigurationDocument) : Except ConfigurationError Configuration := do
  let global ← d.global.mapM EntryDocument.toEntry
  let modules ← d.modules.mapM EntryDocument.toEntry
  let detectors ← d.detectors.mapM EntryDocument.toEntry
  let start : Configuration := {}
  return ({ start with global, modules, ignored := d.ignored.getD start.ignored }).setDetectors detectors

/-- Reads a document. All of it has its shape checked before any setting is read. -/
def parse (text : String) : Except ConfigurationError Configuration :=
  match (Toml.parse? text).bind ConfigurationDocument.ofFields with
  | some d => ofDocument d
  | none => .error .malformedDocument

end Configuration

/-! ## Writing -/

def Setting.toValue : Setting → Toml
  | .text s => .string s
  | .integer i => .integer i
  | .float x => .float x
  | .boolean b => .boolean b
  | .quantity q => .string q.display

/-- One line of a table. -/
def printField (key : String) (value : Toml) : List Char :=
  Toml.printKey key ++ " = ".toList ++ value.print ++ ['\n']

/-- The table of an entry with its header. -/
def Entry.printSection (opening title closing : String) (entry : Entry) : List Char :=
  '\n' :: opening.toList ++ title.toList ++ closing.toList ++ '\n' ::
    printField "name" (.string entry.name) ++
    '\n' :: '[' :: title.toList ++ ".settings]\n".toList ++
    entry.settings.flatMap fun (key, value) => printField key value.toValue

namespace Configuration

/-- An empty list has no sections, so it is written in front of them. -/
def printEmpty (title : String) (entries : List Entry) : List Char :=
  if entries.isEmpty then printField title (.array []) else []

def print (c : Configuration) : String :=
  String.ofList <|
    printField "ignore" (.array (c.ignored.map .string)) ++
    printEmpty "modules" c.modules ++
    printEmpty "detectors" c.detectors ++
    c.global.toList.flatMap (Entry.printSection "[" "global" "]") ++
    c.modules.flatMap (Entry.printSection "[[" "modules" "]]") ++
    c.detectors.flatMap (Entry.printSection "[[" "detectors" "]]")

/-! ## Files -/

variable {m : Type → Type} [Monad m] [FileStore m]

def loadFrom (path : String) : m (Except ConfigurationError Configuration) := do
  match ← FileStore.readText path with
  | .ok text => return parse text
  | .error cause => return .error (.read path cause)

def saveTo (path : String) (c : Configuration) : m (Except ConfigurationError Unit) := do
  return (← FileStore.writeText path c.print).mapError (.write path)

end Configuration

end TestBeam
