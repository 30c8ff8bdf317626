import TestBeam.Toml.Value

/-!
# Reading text

Blanks, comments, strings and keys. Every reader takes the characters that are left and returns what it
read and the rest.
-/

namespace TestBeam.Toml

/-! ## Blanks and comments -/

def isSpace (c : Char) : Bool :=
  c == ' ' || c == '\t'

def skipSpace (cs : List Char) : List Char :=
  cs.dropWhile isSpace

/-- Characters of a comment or a string on one line. -/
def isTextChar (c : Char) : Bool :=
  !isControl c && c ≠ '\n'

/-- Takes a line break, which may be one character or two. -/
def readLineBreak : List Char → Option (List Char)
  | '\n' :: cs => some cs
  | '\r' :: '\n' :: cs => some cs
  | _ => none

/-- Skips a comment up to the end of its line. -/
def skipComment : List Char → List Char
  | '#' :: cs => cs.dropWhile isTextChar
  | cs => cs

/-- Takes what may follow a statement on its line. -/
def readLineEnd (cs : List Char) : Option (List Char) :=
  match skipComment (skipSpace cs) with
  | [] => some []
  | rest => readLineBreak rest

/-- Skips blanks, line breaks and comments between the items of an array. -/
def skipLines : Nat → List Char → List Char
  | 0, cs => cs
  | fuel + 1, cs =>
    match skipComment (skipSpace cs) with
    | [] => []
    | rest =>
      match readLineBreak rest with
      | some rest => skipLines fuel rest
      | none => rest

/-! ## Strings -/

def hexValue? (c : Char) : Option Nat :=
  if c.isDigit then some (c.toNat - '0'.toNat)
  else if 'a' ≤ c && c ≤ 'f' then some (c.toNat - 'a'.toNat + 10)
  else if 'A' ≤ c && c ≤ 'F' then some (c.toNat - 'A'.toNat + 10)
  else none

/-- The character with a code of exactly `count` hexadecimal digits. -/
def readCode (count : Nat) (cs : List Char) : Option (Char × List Char) := do
  let digits ← (cs.take count).mapM hexValue?
  let code := digits.foldl (fun n d => 16 * n + d) 0
  if digits.length = count ∧ code.isValidChar then some (Char.ofNat code, cs.drop count) else none

/-- What follows a backslash. -/
def readEscape : List Char → Option (Char × List Char)
  | [] => none
  | c :: cs =>
    if c = 'b' then some ('\x08', cs)
    else if c = 't' then some ('\t', cs)
    else if c = 'n' then some ('\n', cs)
    else if c = 'f' then some ('\x0c', cs)
    else if c = 'r' then some ('\r', cs)
    else if c = '"' || c = '\\' then some (c, cs)
    else if c = 'u' then readCode 4 cs
    else if c = 'U' then readCode 8 cs
    else none

/-- Text up to the closing quote on the same line. -/
def readLine : Nat → List Char → Option (List Char × List Char)
  | 0, _ => none
  | _, [] => none
  | fuel + 1, c :: cs =>
    if c = '"' then some ([], cs)
    else if c = '\\' then do
      let (d, cs) ← readEscape cs
      let (text, cs) ← readLine fuel cs
      return (d :: text, cs)
    else if isTextChar c then (readLine fuel cs).map fun (text, cs) => (c :: text, cs)
    else none

/-- Text up to the closing apostrophe on the same line. -/
def readLiteralLine : List Char → Option (List Char × List Char)
  | [] => none
  | c :: cs =>
    if c = '\x27' then some ([], cs)
    else if isTextChar c then (readLiteralLine cs).map fun (text, cs) => (c :: text, cs)
    else none

/--
The closing of a text over several lines. Up to two more marks in front of the closing three belong
to the text.
-/
def readClosing (mark : Char) (cs : List Char) : Option (List Char × List Char) :=
  let run := (cs.takeWhile (· == mark)).length
  if run < 3 then none
  else
    let kept := min (run - 3) 2
    some (List.replicate kept mark, cs.drop (kept + 3))

/-- A backslash at the end of a line also removes the blanks at the start of the next text. -/
def readContinuation (cs : List Char) : Option (List Char) :=
  (readLineBreak (skipSpace cs)).map (skipBlankLines (cs.length + 1))
where
  /-- Skips blanks and line breaks. -/
  skipBlankLines : Nat → List Char → List Char
    | 0, cs => cs
    | fuel + 1, cs =>
      match readLineBreak (skipSpace cs) with
      | some rest => skipBlankLines fuel rest
      | none => skipSpace cs

/-- Text up to the closing triple quote. A line break counts as one character. -/
def readLines : Nat → List Char → Option (List Char × List Char)
  | 0, _ => none
  | _, [] => none
  | fuel + 1, c :: cs =>
    match readClosing '"' (c :: cs) with
    | some result => some result
    | none =>
      if c = '\\' then
        match readContinuation cs with
        | some cs => readLines fuel cs
        | none => do
          let (d, cs) ← readEscape cs
          let (text, cs) ← readLines fuel cs
          return (d :: text, cs)
      else
        match readLineBreak (c :: cs) with
        | some cs => (readLines fuel cs).map fun (text, cs) => ('\n' :: text, cs)
        | none =>
          if isTextChar c then (readLines fuel cs).map fun (text, cs) => (c :: text, cs) else none

/-- Text up to the closing triple apostrophe. -/
def readLiteralLines : Nat → List Char → Option (List Char × List Char)
  | 0, _ => none
  | _, [] => none
  | fuel + 1, c :: cs =>
    match readClosing '\x27' (c :: cs) with
    | some result => some result
    | none =>
      match readLineBreak (c :: cs) with
      | some cs => (readLiteralLines fuel cs).map fun (text, cs) => ('\n' :: text, cs)
      | none =>
        if isTextChar c then (readLiteralLines fuel cs).map fun (text, cs) => (c :: text, cs)
        else none

/-- A line break behind the opening is not part of the text. -/
def skipOpening (cs : List Char) : List Char :=
  (readLineBreak cs).getD cs

def readSingle : List Char → Option (List Char × List Char)
  | '"' :: cs => readLine (cs.length + 1) cs
  | '\x27' :: cs => readLiteralLine cs
  | _ => none

def readString : List Char → Option (List Char × List Char)
  | '"' :: '"' :: '"' :: cs => readLines (cs.length + 1) (skipOpening cs)
  | '\x27' :: '\x27' :: '\x27' :: cs => readLiteralLines (cs.length + 1) (skipOpening cs)
  | cs => readSingle cs

/-! ## Keys -/

def readKeyPart (cs : List Char) : Option (String × List Char) :=
  match readSingle cs with
  | some (text, rest) => some (String.ofList text, rest)
  | none =>
    let bare := cs.takeWhile isBareKeyChar
    if bare.isEmpty then none else some (String.ofList bare, cs.dropWhile isBareKeyChar)

/-- The parts of a key, which stand between points. -/
def readParts : Nat → List Char → Option (List String × List Char)
  | 0, _ => none
  | fuel + 1, cs => do
    let (part, cs) ← readKeyPart (skipSpace cs)
    match skipSpace cs with
    | '.' :: cs =>
      let (parts, cs) ← readParts fuel cs
      return (part :: parts, cs)
    | cs => return ([part], cs)

/-- A limit on parts of a key and on values inside values. -/
def maxDepth : Nat := 80

/-- A key with its parts. A key with as many parts as the limit is refused. -/
def readKey (cs : List Char) : Option (List String × List Char) := do
  let (parts, cs) ← readParts (cs.length + 1) cs
  if parts.length < maxDepth then some (parts, cs) else none

end TestBeam.Toml
