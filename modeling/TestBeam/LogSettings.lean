import TestBeam.Entry

/-!
# Log settings

The global section chooses how much is logged and in which layout. Capital and small letters are the
same.
-/

namespace TestBeam

inductive LogLevel where
  | error
  | warn
  | info
  | debug
  | trace
  deriving DecidableEq, Repr

/-- The name of a level in a filter. -/
def LogLevel.directive : LogLevel → String
  | .error => "error"
  | .warn => "warn"
  | .info => "info"
  | .debug => "debug"
  | .trace => "trace"

inductive LogFormat where
  | short
  | default
  | long
  deriving DecidableEq, Repr

def LogFormat.name : LogFormat → String
  | .short => "Short"
  | .default => "Default"
  | .long => "Long"

structure LogSettings where
  level : LogLevel
  format : LogFormat
  deriving DecidableEq, Repr

namespace LogSettings

/-- The words for levels, in the order in which they are listed in an error. -/
def levels : List (String × LogLevel) :=
  [ ("FATAL", .error), ("ERROR", .error), ("WARNING", .warn), ("STATUS", .info), ("INFO", .info),
    ("DEBUG", .debug), ("TRACE", .trace) ]

def formats : List (String × LogFormat) :=
  [("SHORT", .short), ("DEFAULT", .default), ("LONG", .long)]

/-- The meaning of a word. An error shows the word in capital letters. -/
def choose {α : Type} (global : Entry) (key default : String) (words : List (String × α)) :
    Except SettingError α :=
  let word := String.ofList ((global.textOr key default).toList.map Char.toUpper)
  match words.lookup word with
  | some meaning => .ok meaning
  | none =>
    .error <|
      .invalid global.name key word ("expected one of: " ++ ", ".intercalate (words.map (·.1)))

def read (global : Entry) : Except SettingError LogSettings := do
  let level ← choose global "log_level" "WARNING" levels
  let format ← choose global "log_format" "DEFAULT" formats
  return ⟨level, format⟩

end LogSettings

end TestBeam
