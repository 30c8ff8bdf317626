import TestBeam.Files.Store
import TestBeam.NameOrder
import TestBeam.Text.Blank

/-!
# File trees

A file store in memory: a tree of directories and files. A path is walked component by component.
Every component but the last one has to be a directory that exists.
-/

namespace TestBeam

/-- What stands at one place of the tree. -/
inductive FileNode where
  | directory
  | text (content : String)
  /-- A file whose bytes are no text. -/
  | binary
  /-- A device that takes all texts and keeps none. -/
  | null
  /-- A device with no room for any text. -/
  | full
  deriving DecidableEq, Repr

/-- The components of a place, counted from the root. -/
abbrev Place := List String

structure FileTree where
  /-- Relative paths start here. -/
  workingDirectory : Place
  nodes : List (Place × FileNode)
  deriving Repr

namespace FileTree

/-! ## Places -/

/-- What every tree holds besides its root. -/
def devices : List (Place × FileNode) :=
  [(["dev"], .directory), (["dev", "null"], .null), (["dev", "full"], .full)]

/-- The node at a place. The root always is a directory. -/
def node? (tree : FileTree) (place : Place) : Option FileNode :=
  if place.isEmpty then some .directory else (tree.nodes.lookup place).or (devices.lookup place)

def put (tree : FileTree) (place : Place) (node : FileNode) : FileTree :=
  { tree with nodes := tree.nodes.filter (·.1 ≠ place) ++ [(place, node)] }

/-- The longest component and the longest path that a system accepts, in bytes. -/
def maxComponent : Nat := 255

def maxPath : Nat := 4095

def components (path : String) : List String :=
  ((Text.pieces (· == '/') path.toList).filter (fun piece => !piece.isEmpty)).map String.ofList

def start (tree : FileTree) (path : String) : Place :=
  if path.startsWith "/" then [] else tree.workingDirectory

/-- A path that no system call accepts. -/
def unusable? (path : String) : Option FileError :=
  if '\x00' ∈ path.toList then some .nulInName
  else if path.isEmpty then some .notFound
  else if maxPath < path.utf8ByteSize then some .nameTooLong
  else none

/-- One component down from a directory. -/
def descend (place : Place) (component : String) : Except FileError Place :=
  if component = "." then .ok place
  else if component = ".." then .ok place.dropLast
  else if maxComponent < component.utf8ByteSize then .error .nameTooLong
  else .ok (place ++ [component])

/-- The place of a path. Only the last component may be missing. -/
def walk (tree : FileTree) (place : Place) : List String → Except FileError Place
  | [] => .ok place
  | component :: rest =>
    match tree.node? place with
    | none => .error .notFound
    | some .directory => (descend place component).bind fun next => tree.walk next rest
    | some _ => .error .notADirectory

/-- The place that the given components of a path lead to. -/
def locate (tree : FileTree) (path : String) (components : List String) : Except FileError Place :=
  match unusable? path with
  | some e => .error e
  | none => tree.walk (tree.start path) components

/-- The texts below a place with their paths from there, in the order of the paths. -/
def textsBelow (tree : FileTree) (place : Place) : List (String × String) :=
  let text? (node : Place × FileNode) : Option (String × String) :=
    match node with
    | (p, .text content) =>
      if place.isPrefixOf p then some ("/".intercalate (p.drop place.length), content) else none
    | _ => none
  sortByName Prod.fst (tree.nodes.filterMap text?)

/-! ## The operations -/

/-- A path that ends in a slash names a directory. A full device reads as zeros without end. -/
def readText (tree : FileTree) (path : String) : Except FileError String :=
  let closing := if path.endsWith "/" then ["."] else []
  (tree.locate path (components path ++ closing)).bind fun place =>
    match tree.node? place with
    | none => .error .notFound
    | some .directory => .error .isADirectory
    | some .binary | some .full => .error .notUtf8
    | some .null => .ok ""
    | some (.text content) => .ok content

/-- Opens an empty file, or a device as it is. The last component of a path that ends in a slash is not
looked at. -/
def create (tree : FileTree) (path : String) : Except FileError (Place × FileTree) :=
  let all := components path
  let walked := if path.endsWith "/" then all.dropLast ++ ["."] else all
  (tree.locate path walked).bind fun place =>
    match tree.node? place with
    | some .directory => .error .isADirectory
    | some .null | some .full => .ok (place, tree)
    | _ => .ok (place, tree.put place (.text ""))

def append (tree : FileTree) (place : Place) (text : String) : Except FileError FileTree :=
  match tree.node? place with
  | none => .error .notFound
  | some .directory => .error .isADirectory
  | some .full => .error .storageFull
  | some .binary | some .null => .ok tree
  | some (.text content) => .ok (tree.put place (.text (content ++ text)))

/-- Makes one directory, where all directories above it have to exist. -/
def makeDirectory (tree : FileTree) (place : Place) (components : List String) :
    Except FileError FileTree :=
  (tree.walk place components).bind fun target =>
    match tree.node? target with
    | none => .ok (tree.put target .directory)
    | some _ => .error .alreadyExists

def isDirectory (tree : FileTree) (place : Place) (components : List String) : Bool :=
  match tree.walk place components with
  | .ok target => tree.node? target = some .directory
  | .error _ => false

/-- Makes one directory unless it is there already. -/
def ensureDirectory (tree : FileTree) (place : Place) (components : List String) :
    Except FileError Unit × FileTree :=
  match tree.makeDirectory place components with
  | .ok tree => (.ok (), tree)
  | .error e => (if tree.isDirectory place components then .ok () else .error e, tree)

/--
Makes a directory. Only if something above it is missing, the directories above it are made first,
and those stay when a later one fails. The components above are given from the last one up.
-/
def makeBelow (tree : FileTree) (place : Place) (components : List String) :
    (above : List String) → Except FileError Unit × FileTree
  | [] => tree.ensureDirectory place components
  | last :: above =>
    if tree.makeDirectory place components matches .error .notFound then
      match tree.makeBelow place (last :: above).reverse above with
      | (.ok (), tree) => tree.ensureDirectory place components
      | failed => failed
    else tree.ensureDirectory place components

/-- The empty path needs no directory. A component that is a dot has no directory of its own. -/
def makeDirectories (tree : FileTree) (path : String) : Except FileError Unit × FileTree :=
  if path.isEmpty then (.ok (), tree)
  else
    match unusable? path with
    | some e => (.error e, tree)
    | none =>
      let all := components path
      let named := all.filter (· ≠ ".")
      tree.makeBelow (tree.start path) all named.dropLast.reverse

/-- Computations whose state holds a file tree have a file store. -/
instance {m : Type → Type} [Monad m] [MonadStateOf FileTree m] : FileStore m where
  Handle := Place
  readText path := return (← get).readText path
  makeDirectories path := do
    let (result, tree) := (← get).makeDirectories path
    set tree
    return result
  create path := do
    match (← get).create path with
    | .ok (place, tree) =>
      set tree
      return .ok place
    | .error e => return .error e
  append place text := do
    match (← get).append place text with
    | .ok tree =>
      set tree
      return .ok ()
    | .error e => return .error e

end FileTree

end TestBeam
