import TestBeam.Files.Store
import TestBeam.Json.Number
import TestBeam.Json.Printer
import TestBeam.Json.Reader
import TestBeam.Module.Identity

/-!
# Run summaries

A run that completes has a summary, which lists its instances in the order of execution with the time
that each took. It is stored as JSON and can be read back.
-/

namespace TestBeam

/-- One instance of a completed run. -/
structure ModuleReport where
  index : UInt64
  id : ModuleId
  elapsedSeconds : Float
  deriving BEq, Repr

structure RunSummary where
  runId : RunId
  events : UInt64
  modules : List ModuleReport
  failed : UInt64
  elapsedSeconds : Float
  deriving Repr

instance : BEq RunSummary where
  beq a b :=
    a.runId = b.runId && a.events == b.events && a.modules == b.modules && a.failed == b.failed &&
      a.elapsedSeconds == b.elapsedSeconds

/-! ## JSON -/

def ModuleId.toJson (id : ModuleId) : Json :=
  .object [("name", .string id.name), ("detector", .ofOption id.detector)]

def Phase.toJson : Phase → Json
  | .init => .string "Init"
  | .event n => .object [("Event", .ofNat n)]
  | .finalize => .string "Finalize"

def ModuleReport.toJson (r : ModuleReport) : Json :=
  .object
    [ ("index", .ofNat r.index.toNat),
      ("id", r.id.toJson),
      ("elapsed_s", .ofFloat r.elapsedSeconds) ]

def RunSummary.toJson (s : RunSummary) : Json :=
  .object
    [ ("run_id", .string s.runId.text),
      ("events", .ofNat s.events.toNat),
      ("modules", .array (s.modules.map ModuleReport.toJson)),
      ("failed", .ofNat s.failed.toNat),
      ("elapsed_s", .ofFloat s.elapsedSeconds) ]

/-- A missing detector is the same as none. -/
def ModuleId.ofJson? (json : Json) : Option ModuleId :=
  match json.record? ["name", "detector"] with
  | some [some name, detector] => do
    let name ← name.string?
    match detector with
    | none | some .null => return ⟨name, none⟩
    | some detector => return ⟨name, some (← detector.string?)⟩
  | _ => none

def ModuleReport.ofJson? (json : Json) : Option ModuleReport :=
  match json.record? ["index", "id", "elapsed_s"] with
  | some [some index, some id, some elapsed] => do
    return ⟨(← index.count?).toUInt64, ← ModuleId.ofJson? id, ← elapsed.float?⟩
  | _ => none

def RunSummary.ofJson? (json : Json) : Option RunSummary :=
  match json.record? ["run_id", "events", "modules", "failed", "elapsed_s"] with
  | some [some runId, some events, some modules, some failed, some elapsed] => do
    return {
      runId := ⟨← runId.string?⟩
      events := (← events.count?).toUInt64
      modules := ← (← modules.items?).mapM ModuleReport.ofJson?
      failed := (← failed.count?).toUInt64
      elapsedSeconds := ← elapsed.float? }
  | _ => none

namespace RunSummary

/-- The text of a summary file. -/
def print (s : RunSummary) : String :=
  s.toJson.print .pretty

/-- Reads the text of a summary file. -/
def parse? (text : String) : Option RunSummary :=
  (Json.parse? text).bind RunSummary.ofJson?

/-- The number of instances that ran to completion. -/
def executed (s : RunSummary) : Nat :=
  s.modules.length

end RunSummary

/-! ## Files -/

/-- Why a summary file cannot be used. -/
inductive SummaryError where
  | create (path : String) (cause : FileError)
  | serialize (path : String) (cause : FileError)
  | openFile (path : String) (cause : FileError)
  | content (path : String)
  deriving DecidableEq, Repr

namespace SummaryError

def message : SummaryError → String
  | .create path _ => "Failed to create file: " ++ path
  | .serialize path _ => "Failed to serialize summary to: " ++ path
  | .openFile path _ => "Failed to open file: " ++ path
  | .content path => "Failed to deserialize summary from: " ++ path

def causes : SummaryError → List String
  | .create _ cause => [cause.message]
  | .serialize _ cause => [cause.message]
  | .openFile _ cause => [cause.message]
  | .content _ => []

/-- A directory can be opened, and bytes that are no text show only in the content. -/
def ofReading (path : String) (cause : FileError) : SummaryError :=
  if cause = .isADirectory || cause = .notUtf8 then .content path else .openFile path cause

end SummaryError

namespace RunSummary

variable {m : Type → Type} [Monad m] [FileStore m]

/-- What happens when the file is closed is not looked at. -/
def write (path : String) (s : RunSummary) : m (Except SummaryError Unit) := do
  match ← FileStore.writePieces path s.toJson.pieces with
  | .error cause => return .error (.create path cause)
  | .ok storing => return storing.passing.mapError (.serialize path)

def read (path : String) : m (Except SummaryError RunSummary) := do
  match ← FileStore.readText path with
  | .error cause => return .error (.ofReading path cause)
  | .ok text =>
    match parse? text with
    | some s => return .ok s
    | none => return .error (.content path)

end RunSummary

end TestBeam
