import TestBeam.Toml.Assembly
import TestBeam.Toml.Number

/-!
# Reading documents

A document is a list of statements, one on each line. Values nest up to a fixed depth, so reading a
value recurses on the depth that is left.
-/

namespace TestBeam.Toml

/-! ## Values -/

/-- A value that holds no other. A date is tried before a number. -/
def readScalar (cs : List Char) : Option (Toml × List Char) :=
  match cs with
  | [] => none
  | 't' :: 'r' :: 'u' :: 'e' :: rest => some (.boolean true, rest)
  | 'f' :: 'a' :: 'l' :: 's' :: 'e' :: rest => some (.boolean false, rest)
  | c :: _ =>
    if c = '"' || c = '\x27' then (readString cs).map fun (s, rest) => (.string (String.ofList s), rest)
    else
      match readDatetime cs with
      | some (d, rest) => some (.datetime d, rest)
      | none =>
        match readFloat cs with
        | some (x, rest) => some (.float x, rest)
        | none => (readInteger cs).map fun (i, rest) => (.integer i, rest)

/-- What is read by one reader for the values inside another value. -/
abbrev ValueReader := List Char → Option (Toml × List Char)

/-- Items up to the closing bracket. A comma may stand behind the last one. -/
def readItems (item : ValueReader) : Nat → List Char → Option (List Toml × List Char)
  | 0, _ => none
  | fuel + 1, cs =>
    match skipLines cs.length cs with
    | ']' :: cs => some ([], cs)
    | cs => do
      let (value, cs) ← item cs
      match skipLines cs.length cs with
      | ',' :: cs =>
        let (values, cs) ← readItems item fuel cs
        return (value :: values, cs)
      | ']' :: cs => return ([value], cs)
      | _ => none

/-- A key, an equals sign and a value. -/
def readAssignment (item : ValueReader) (cs : List Char) : Option (Assignment × List Char) := do
  let (path, cs) ← readKey cs
  match cs with
  | '=' :: cs =>
    let (value, cs) ← item (skipSpace cs)
    return (⟨path, value⟩, cs)
  | _ => none

/-- At least one assignment, up to the closing brace. -/
def readFields (item : ValueReader) : Nat → List Char → Option (List Assignment × List Char)
  | 0, _ => none
  | fuel + 1, cs => do
    let (assignment, cs) ← readAssignment item cs
    match skipSpace cs with
    | ',' :: cs =>
      let (assignments, cs) ← readFields item fuel cs
      return (assignment :: assignments, cs)
    | '}' :: cs => return ([assignment], cs)
    | _ => none

def readInlineTable (item : ValueReader) (cs : List Char) : Option (Toml × List Char) :=
  match skipSpace cs with
  | '}' :: cs => some (.table [], cs)
  | cs => do
    let (assignments, cs) ← readFields item (cs.length + 1) cs
    let fields ← assignAll [] assignments
    return (.table (toFields fields), cs)

/-- A value with at most `depth` values around its innermost one. -/
def readValue : Nat → ValueReader
  | 0 => readScalar
  | depth + 1 => fun cs =>
    match cs with
    | '[' :: cs =>
      (readItems (readValue depth) (cs.length + 1) cs).map fun (items, cs) => (.array items, cs)
    | '{' :: cs => readInlineTable (readValue depth) cs
    | cs => readScalar cs

/-! ## Statements -/

inductive Statement where
  | assign (assignment : Assignment)
  | header (header : Header)
  deriving Repr

/-- The name of a section in brackets. -/
def readHeader (cs : List Char) : Option (Header × List Char) :=
  match cs with
  | '[' :: cs => do
    let (path, cs) ← readKey cs
    match cs with
    | ']' :: ']' :: cs => return (⟨.element, path⟩, cs)
    | _ => none
  | cs => do
    let (path, cs) ← readKey cs
    match cs with
    | ']' :: cs => return (⟨.table, path⟩, cs)
    | _ => none

def readStatement (cs : List Char) : Option (Statement × List Char) :=
  match cs with
  | '[' :: cs => (readHeader cs).map fun (header, cs) => (.header header, cs)
  | cs =>
    (readAssignment (readValue (maxDepth - 1)) cs).map fun (assignment, cs) =>
      (.assign assignment, cs)

/-- The statements of a document. Lines without one are skipped. -/
def readStatements : Nat → List Char → Option (List Statement)
  | 0, _ => none
  | fuel + 1, cs =>
    match skipLines cs.length cs with
    | [] => some []
    | cs => do
      let (statement, cs) ← readStatement cs
      let cs ← readLineEnd cs
      return statement :: (← readStatements fuel cs)

/-! ## Documents -/

/-- The assignments in front of the first header, and each header with those behind it. -/
def groupSections : List Statement → List Assignment × List Section
  | [] => ([], [])
  | .assign assignment :: rest =>
    let (root, sections) := groupSections rest
    (assignment :: root, sections)
  | .header header :: rest =>
    let (own, sections) := groupSections rest
    ([], ⟨header, own⟩ :: sections)

/-- A mark at the start of a text that tells its encoding. -/
def skipMark : List Char → List Char
  | '\ufeff' :: cs => cs
  | cs => cs

/-- The fields of a document. -/
def parse? (text : String) : Option (List (String × Toml)) := do
  let cs := skipMark text.toList
  let statements ← readStatements (cs.length + 1) cs
  let (root, sections) := groupSections statements
  return toFields (← assemble root sections)

end TestBeam.Toml
