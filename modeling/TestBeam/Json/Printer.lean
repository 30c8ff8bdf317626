import TestBeam.Json.Value

/-!
# Writing JSON

A value is written on one line, or with one item on each line and two more blanks for each level.
-/

namespace TestBeam.Json

/-! ## Strings -/

/-- The digit for a number below sixteen, in small letters. -/
def hexDigit (n : Nat) : Char :=
  Nat.digitChar n

/-- Quotes, backslashes and control characters are escaped. -/
def escape (c : Char) : List Char :=
  if c = '"' then ['\\', '"']
  else if c = '\\' then ['\\', '\\']
  else if c = '\x08' then ['\\', 'b']
  else if c = '\x0c' then ['\\', 'f']
  else if c = '\n' then ['\\', 'n']
  else if c = '\r' then ['\\', 'r']
  else if c = '\t' then ['\\', 't']
  else if c.toNat < 0x20 then
    ['\\', 'u', '0', '0', hexDigit (c.toNat / 16), hexDigit (c.toNat % 16)]
  else [c]

def quote (s : String) : List Char :=
  '"' :: (s.toList.flatMap escape ++ ['"'])

/-! ## Values -/

inductive Style where
  | compact
  | pretty
  deriving DecidableEq, Repr

/-- What stands between items at a depth. -/
def Style.lineBreak (style : Style) (depth : Nat) : List Char :=
  match style with
  | .compact => []
  | .pretty => '\n' :: List.replicate (2 * depth) ' '

/-- What stands between a key and its value. -/
def Style.colon (style : Style) : List Char :=
  match style with
  | .compact => [':']
  | .pretty => [':', ' ']

mutual

def render (style : Style) (depth : Nat) : Json → List Char
  | .null => "null".toList
  | .boolean b => if b then "true".toList else "false".toList
  | .number literal => literal
  | .string s => quote s
  | .array [] => ['[', ']']
  | .array (item :: rest) =>
    '[' :: (style.lineBreak (depth + 1) ++ render style (depth + 1) item ++
      renderItems style depth rest ++ style.lineBreak depth ++ [']'])
  | .object [] => ['{', '}']
  | .object ((key, value) :: rest) =>
    '{' :: (style.lineBreak (depth + 1) ++ quote key ++ style.colon ++
      render style (depth + 1) value ++ renderFields style depth rest ++ style.lineBreak depth ++
      ['}'])
  | .unusable => "null".toList

/-- The items behind the first one. -/
def renderItems (style : Style) (depth : Nat) : List Json → List Char
  | [] => []
  | item :: rest =>
    ',' :: (style.lineBreak (depth + 1) ++ render style (depth + 1) item ++
      renderItems style depth rest)

/-- The fields behind the first one. -/
def renderFields (style : Style) (depth : Nat) : List (String × Json) → List Char
  | [] => []
  | (key, value) :: rest =>
    ',' :: (style.lineBreak (depth + 1) ++ quote key ++ style.colon ++
      render style (depth + 1) value ++ renderFields style depth rest)

end

/-- The text of a value. -/
def print (json : Json) (style : Style) : String :=
  String.ofList (json.render style 0)

/-! ## Pieces -/

/-- Characters that are passed on together, unless there are none. -/
def runPiece (run : List Char) : List (List Char) :=
  if run.isEmpty then [] else [run]

/-- The pieces of a string's text behind a run of characters. Each escape is a piece of its own. -/
def textPieces (run : List Char) : List Char → List (List Char)
  | [] => runPiece run
  | c :: cs =>
    if escape c = [c] then textPieces (run ++ [c]) cs
    else runPiece run ++ escape c :: textPieces [] cs

def quotePieces (s : String) : List (List Char) :=
  ['"'] :: (textPieces [] s.toList ++ [['"']])

def indentPieces (depth : Nat) : List (List Char) :=
  List.replicate depth [' ', ' ']

mutual

/-- The pieces in which a value is passed to a file, with one item on each line. -/
def prettyPieces (depth : Nat) : Json → List (List Char)
  | .null => ["null".toList]
  | .boolean b => [if b then "true".toList else "false".toList]
  | .number literal => [literal]
  | .string s => quotePieces s
  | .array [] => [['['], [']']]
  | .array (item :: rest) =>
    ['['] :: ['\n'] :: (indentPieces (depth + 1) ++ prettyPieces (depth + 1) item ++
      itemPieces depth rest ++ ['\n'] :: (indentPieces depth ++ [[']']]))
  | .object [] => [['{'], ['}']]
  | .object ((key, value) :: rest) =>
    ['{'] :: ['\n'] :: (indentPieces (depth + 1) ++ quotePieces key ++ [[':', ' ']] ++
      prettyPieces (depth + 1) value ++ fieldPieces depth rest ++
      ['\n'] :: (indentPieces depth ++ [['}']]))
  | .unusable => ["null".toList]

/-- The pieces of the items behind the first one. -/
def itemPieces (depth : Nat) : List Json → List (List Char)
  | [] => []
  | item :: rest =>
    [',', '\n'] :: (indentPieces (depth + 1) ++ prettyPieces (depth + 1) item ++
      itemPieces depth rest)

/-- The pieces of the fields behind the first one. -/
def fieldPieces (depth : Nat) : List (String × Json) → List (List Char)
  | [] => []
  | (key, value) :: rest =>
    [',', '\n'] :: (indentPieces (depth + 1) ++ quotePieces key ++ [[':', ' ']] ++
      prettyPieces (depth + 1) value ++ fieldPieces depth rest)

end

def pieces (json : Json) : List String :=
  (json.prettyPieces 0).map String.ofList

end TestBeam.Json
