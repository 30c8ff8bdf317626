import TestBeam.Toml.Value

/-!
# Assembling documents

The statements of a document are put together to one tree of tables. A table comes from a header, or
because a header or a dotted key below it implies it. The origin decides what may still be added: each
table has at most one header, and dotted keys extend no table that has one.
-/

namespace TestBeam.Toml

/-- How a table came about. -/
inductive Origin where
  | header
  | implied
  | dotted
  deriving DecidableEq, Repr

/-- A part of the document that is being assembled. -/
inductive Node where
  | value (value : Toml)
  | table (origin : Origin) (fields : List (String × Node))
  | elements (elements : List (List (String × Node)))
  deriving Repr

abbrev Fields := List (String × Node)

/-! ## Fields -/

/-- Gives a key that is there another node. -/
def replaceField (key : String) (node : Node) : Fields → Fields
  | [] => []
  | (k, n) :: rest => if k = key then (k, node) :: rest else (k, n) :: replaceField key node rest

/-- Changes the fields of a table, given how it came about. -/
abbrev Change := Origin → Fields → Option Fields

/--
Makes a change in the table at a path. Missing tables on the way are added. The last element of a list
of tables stands for the list.
-/
def within (dotted : Bool) (change : Change) : List String → Change
  | [], origin, fields => change origin fields
  | key :: path, _, fields =>
    match fields.lookup key with
    | none =>
      let origin := if dotted then .dotted else .implied
      (within dotted change path origin []).map fun inner => fields ++ [(key, .table origin inner)]
    | some (.value _) => none
    | some (.elements elements) =>
      match elements.getLast? with
      | none => none
      | some last =>
        (within dotted change path .header last).map fun inner =>
          replaceField key (.elements (elements.dropLast ++ [inner])) fields
    | some (.table origin inner) =>
      if dotted && origin = .header then none
      else
        (within dotted change path origin inner).map fun inner =>
          replaceField key (.table origin inner) fields

/-! ## Assignments -/

/-- A key with its parts, and a value. -/
structure Assignment where
  path : List String
  value : Toml
  deriving Repr

/-- Adds a field. A dotted key ends in a table of dotted keys, and a plain key never does. -/
def addField (dotted : Bool) (key : String) (value : Toml) : Change := fun origin fields =>
  if dotted ≠ decide (origin = .dotted) || (fields.lookup key).isSome then none
  else some (fields ++ [(key, .value value)])

def assign (fields : Fields) (a : Assignment) : Option Fields :=
  match a.path.getLast? with
  | none => none
  | some key =>
    let path := a.path.dropLast
    within true (addField (!path.isEmpty) key a.value) path .header fields

def assignAll (fields : Fields) (assignments : List Assignment) : Option Fields :=
  assignments.foldlM assign fields

/-! ## Sections -/

/-- A header starts a table or one more element of a list of tables. -/
inductive HeaderKind where
  | table
  | element
  deriving DecidableEq, Repr

structure Header where
  kind : HeaderKind
  path : List String
  deriving DecidableEq, Repr

/-- A header with the assignments behind it. -/
structure Section where
  header : Header
  assignments : List Assignment
  deriving Repr

/-- Adds a table. One that was only implied moves to the end. -/
def addTable (key : String) (assignments : List Assignment) : Change := fun _ fields =>
  match fields.lookup key with
  | none => (assignAll [] assignments).map fun inner => fields ++ [(key, .table .header inner)]
  | some (.table .implied inner) =>
    (assignAll inner assignments).map fun inner =>
      fields.filter (·.1 ≠ key) ++ [(key, .table .header inner)]
  | some _ => none

def addElement (key : String) (assignments : List Assignment) : Change := fun _ fields =>
  match fields.lookup key with
  | none => (assignAll [] assignments).map fun inner => fields ++ [(key, .elements [inner])]
  | some (.elements elements) =>
    (assignAll [] assignments).map fun inner =>
      replaceField key (.elements (elements ++ [inner])) fields
  | some _ => none

def addSection (fields : Fields) (s : Section) : Option Fields :=
  match s.header.path.getLast? with
  | none => none
  | some key =>
    let change := match s.header.kind with
      | .table => addTable key s.assignments
      | .element => addElement key s.assignments
    within false change s.header.path.dropLast .header fields

def assemble (root : List Assignment) (sections : List Section) : Option Fields :=
  (assignAll [] root).bind fun fields => sections.foldlM addSection fields

/-! ## The finished tree -/

mutual

def toFields : Fields → List (String × Toml)
  | [] => []
  | (key, node) :: rest => (key, toValue node) :: toFields rest

def toValue : Node → Toml
  | .value v => v
  | .table _ fields => .table (toFields fields)
  | .elements elements => .array (toElements elements)

def toElements : List Fields → List Toml
  | [] => []
  | fields :: rest => .table (toFields fields) :: toElements rest

end

end TestBeam.Toml
