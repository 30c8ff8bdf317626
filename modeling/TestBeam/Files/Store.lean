/-!
# Files

A run reads its configuration from a file and writes histograms and a summary. A file store says what
the operations on files do. The command line runs on the disk, and statements about it can be made for
any store.
-/

namespace TestBeam

/-- Why a file operation failed. -/
inductive FileError where
  | notFound
  | alreadyExists
  | notADirectory
  | isADirectory
  | nameTooLong
  | nulInName
  | notUtf8
  | storageFull
  | other (text : String)
  deriving DecidableEq, Repr

/-- The system's text and number for a cause. -/
def FileError.message : FileError → String
  | .notFound => "No such file or directory (os error 2)"
  | .alreadyExists => "File exists (os error 17)"
  | .notADirectory => "Not a directory (os error 20)"
  | .isADirectory => "Is a directory (os error 21)"
  | .nameTooLong => "File name too long (os error 36)"
  | .nulInName => "file name contained an unexpected NUL byte"
  | .notUtf8 => "stream did not contain valid UTF-8"
  | .storageFull => "No space left on device (os error 28)"
  | .other text => text

/-- Text files under paths. -/
class FileStore (m : Type → Type) where
  /-- What an open file is known by. -/
  Handle : Type
  readText : String → m (Except FileError String)
  /-- Makes a directory and all missing ones above it. -/
  makeDirectories : String → m (Except FileError Unit)
  /-- Makes a file, or empties one that is there, and opens it. -/
  create : String → m (Except FileError Handle)
  /-- Stores a text behind all that an open file holds. -/
  append : Handle → String → m (Except FileError Unit)

/-- The path of a name inside a directory. A name that starts at the root stands for itself. -/
def joinPath (directory name : String) : String :=
  if directory.isEmpty || name.startsWith "/" then name
  else if directory.endsWith "/" then directory ++ name
  else directory ++ "/" ++ name

namespace FileStore

variable {m : Type → Type} [Monad m] [FileStore m]

/-- An empty text needs no access to the file. -/
def put (handle : Handle m) (text : String) : m (Except FileError Unit) :=
  if text.isEmpty then return .ok () else append handle text

/-- Makes a file or replaces its text, all at once. -/
def writeText (path text : String) : m (Except FileError Unit) := do
  match ← create path with
  | .error cause => return .error cause
  | .ok handle => put handle text

/-! ## Buffered files -/

/-- The number of bytes that a buffer holds back. -/
def bufferSize : Nat := 8192

/-- Adds a piece to what is held back. A piece that is as large as the buffer is stored at once. -/
def hold (handle : Handle m) (held piece : String) : m (Except FileError Unit × String) := do
  if piece.utf8ByteSize < bufferSize then return (.ok (), held ++ piece)
  else return (← append handle piece, held)

/-- Takes a piece. What is held back is stored first if the buffer has no room for the piece behind it. -/
def pass (handle : Handle m) (held piece : String) : m (Except FileError Unit × String) := do
  if held.utf8ByteSize + piece.utf8ByteSize ≤ bufferSize then hold handle held piece
  else
    match ← put handle held with
    | .error cause => return (.error cause, held)
    | .ok () => hold handle "" piece

/-- Takes pieces up to the first failure, and says what is still held back. -/
def passAll (handle : Handle m) (held : String) :
    List String → m (Except FileError Unit × String)
  | [] => return (.ok (), held)
  | piece :: pieces => do
    match ← pass handle held piece with
    | (.error cause, held) => return (.error cause, held)
    | (.ok (), held) => passAll handle held pieces

/-- What became of the pieces that a buffered file was given. -/
structure Storing where
  passing : Except FileError Unit
  /-- What was held back to the end is stored when the file is closed. -/
  closing : Except FileError Unit

/-- Makes a file of pieces, which go through a buffer. -/
def writePieces (path : String) (pieces : List String) : m (Except FileError Storing) := do
  match ← create path with
  | .error cause => return .error cause
  | .ok handle =>
    let (passing, held) ← passAll handle "" pieces
    return .ok ⟨passing, ← put handle held⟩

end FileStore

end TestBeam
