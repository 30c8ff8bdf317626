import TestBeam.Decimal.Layout
import TestBeam.Toml.Value

/-!
# Writing values

A string is written in the plainest of five forms that can hold it: in quotes, in apostrophes, over
several lines in either, or with escapes.
-/

namespace TestBeam.Toml

/-! ## Strings -/

def longestRun (c : Char) (cs : List Char) : Nat :=
  let step (state : Nat × Nat) (d : Char) : Nat × Nat :=
    let run := if d = c then state.1 + 1 else 0
    (run, max state.2 run)
  (cs.foldl step (0, 0)).2

/-- The digit for a number below sixteen, in capital letters. -/
def hexDigit (n : Nat) : Char :=
  (Nat.digitChar n).toUpper

/-- A character between quotes, other than a quote. -/
def escapeChar (c : Char) : List Char :=
  if c = '\x08' then ['\\', 'b']
  else if c = '\t' then ['\\', 't']
  else if c = '\x0c' then ['\\', 'f']
  else if c = '\r' then ['\\', 'r']
  else if c = '\\' then ['\\', '\\']
  else if isControl c then
    ['\\', 'u', '0', '0', hexDigit (c.toNat / 16), hexDigit (c.toNat % 16)]
  else [c]

/-- Text between quotes on one line. -/
def escapeLine (cs : List Char) : List Char :=
  cs.flatMap fun c =>
    if c = '\n' then ['\\', 'n'] else if c = '"' then ['\\', '"'] else escapeChar c

/-- Text between triple quotes. Every third quote of a run is escaped. -/
def escapeLines (run : Nat) : List Char → List Char
  | [] => []
  | c :: cs =>
    if c = '"' then
      if run = 2 then '\\' :: '"' :: escapeLines 0 cs else '"' :: escapeLines (run + 1) cs
    else escapeChar c ++ escapeLines 0 cs

def quoteLine (cs : List Char) : List Char :=
  '"' :: (escapeLine cs ++ ['"'])

/-- A line break behind the opening is not part of the text. -/
def opening (cs : List Char) : List Char :=
  if '\n' ∈ cs then ['\n'] else []

def quoteLines (cs : List Char) : List Char :=
  '"' :: '"' :: '"' :: (opening cs ++ escapeLines 0 cs ++ ['"', '"', '"'])

def literalLine (cs : List Char) : List Char :=
  '\x27' :: (cs ++ ['\x27'])

def literalLines (cs : List Char) : List Char :=
  '\x27' :: '\x27' :: '\x27' :: (opening cs ++ cs ++ ['\x27', '\x27', '\x27'])

def printString (s : String) : List Char :=
  let cs := s.toList
  let control := cs.any isControl
  let backslash := '\\' ∈ cs
  let lineBreak := '\n' ∈ cs
  if !control && !backslash && '"' ∉ cs && !lineBreak then quoteLine cs
  else if !control && '\x27' ∉ cs && !lineBreak then literalLine cs
  else if !control && !backslash && longestRun '"' cs ≤ 2 then quoteLines cs
  else if !control && longestRun '\x27' cs ≤ 2 then literalLines cs
  else if lineBreak then quoteLines cs
  else quoteLine cs

def printKey (s : String) : List Char :=
  let cs := s.toList
  let control := cs.any fun c => isControl c || c == '\n'
  if !cs.isEmpty && cs.all isBareKeyChar then cs
  else if !control && '\\' ∉ cs && '"' ∉ cs then quoteLine cs
  else if !control && '\x27' ∉ cs then literalLine cs
  else quoteLine cs

/-! ## Values -/

/-- Numbers have no exponent, and whole ones end in `.0`. -/
def floatLayout : Decimal.Layout :=
  { Decimal.plain with pointZero := true, notANumber := "nan" }

def printFloat (x : Float) : List Char :=
  (floatLayout.print x).toList

mutual

/-- The text of a value on one line. -/
def print : Toml → List Char
  | .string s => printString s
  | .integer i => Decimal.integer i.toInt
  | .float x => printFloat x
  | .boolean b => if b then "true".toList else "false".toList
  | .datetime d => d.print
  | .array [] => ['[', ']']
  | .array (item :: rest) => '[' :: (print item ++ printItems rest ++ [']'])
  | .table [] => ['{', '}']
  | .table ((key, value) :: rest) =>
    '{' :: ' ' :: (printKey key ++ ' ' :: '=' :: ' ' :: print value ++ printFields rest ++ [' ', '}'])

/-- The items behind the first one. -/
def printItems : List Toml → List Char
  | [] => []
  | item :: rest => ',' :: ' ' :: (print item ++ printItems rest)

/-- The fields behind the first one. -/
def printFields : List (String × Toml) → List Char
  | [] => []
  | (key, value) :: rest =>
    ',' :: ' ' :: (printKey key ++ ' ' :: '=' :: ' ' :: print value ++ printFields rest)

end

/-- The text of a value in a message. A date alone is presented as a table. -/
def display (value : Toml) : String :=
  let shown : Toml := match value with
    | .datetime d => .table [(dateField, .string (String.ofList d.print))]
    | other => other
  String.ofList shown.print

end TestBeam.Toml
