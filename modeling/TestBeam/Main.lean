import TestBeam.CommandLine.Response

/-!
# The program

Connects the command line to the disk, the clock and a source of random bits.
-/

namespace TestBeam

/-- The cause of a failed operation on the disk. -/
def FileError.ofIO : IO.Error → FileError
  | .noFileOrDirectory .. => .notFound
  | .alreadyExists .. => .alreadyExists
  | .inappropriateType _ code _ => if code = 20 then .notADirectory else .isADirectory
  | .resourceExhausted _ 28 _ => .storageFull
  | e => .other (toString e)

def onDisk {α : Type} (action : IO α) : IO (Except FileError α) := do
  match ← action.toBaseIO with
  | .ok value => return .ok value
  | .error e => return .error (.ofIO e)

instance : FileStore IO where
  Handle := IO.FS.Handle
  readText path := do
    match ← onDisk (IO.FS.readBinFile path) with
    | .error e => return .error e
    | .ok bytes =>
      match String.fromUTF8? bytes with
      | some text => return .ok text
      | none => return .error .notUtf8
  makeDirectories path := if path.isEmpty then return .ok () else onDisk (IO.FS.createDirAll path)
  create path := onDisk (IO.FS.Handle.mk path .write)
  append handle text := onDisk do
    handle.putStr text
    handle.flush

/-- Seconds since some fixed moment. -/
def clockSeconds : IO Float := do
  return (← IO.monoNanosNow).toFloat / 1000000000

/-- An identifier for a run, made of random bits. -/
def freshRunId : IO RunId := do
  let bytes ← IO.getRandomBytes 16
  let word (part : List UInt8) : UInt64 :=
    part.foldl (fun n b => n * 256 + b.toUInt64) 0
  return RunId.ofBits (word (bytes.toList.take 8)) (word (bytes.toList.drop 8))

end TestBeam

/-- Runs the command line, prints its output and errors, and exits with its status. -/
def main (args : List String) : IO UInt32 := do
  let id ← TestBeam.freshRunId
  let response ← TestBeam.CommandLine.respond id TestBeam.clockSeconds args
  for line in response.output do
    IO.println line
  for line in response.errors do
    IO.eprintln line
  return response.status.toUInt32
